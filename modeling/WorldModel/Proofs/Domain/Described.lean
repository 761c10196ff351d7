/-
The types that a description describes.

A description gives parents as it happens to spell them: the same type may stand in several
entries, of which the last one counts, an entry may give the root type a parent, which is
passed over, and a type may be its own ancestor. What it describes is said without going
through a domain: which types there are (`Description.IsType`), what the parent of each is
(`Description.Parent`), and when one type is below another (`Description.Below`). A domain is
made of a description exactly when parents are there and there is no cycle, and all types that
are used are there (`Description.WellTyped`).

**Main statement.** `types_of_description`: which descriptions make a domain, and what
subtypes and positions of signatures are in the domain that is made.
-/
import Mathlib.Data.List.Induction
import WorldModel.Domain.File
import WorldModel.Proofs.Domain.Hierarchy
import WorldModel.Proofs.Results

set_option autoImplicit false

namespace WorldModel

open Relation (TransGen)

/-! ## Entries that count -/

namespace Table

variable {α β : Type} {t : Table α} {name : String} {e : String × α}

/-- **The entry that counts** for a name: of the entries of this name, in any spelling, the
one with the last key. -/
structure Counts (t : Table α) (name : String) (e : String × α) : Prop where
  mem : e ∈ t
  spelled : fold e.1 = name
  last : ∀ other ∈ t, fold other.1 = name → other.1 ≤ e.1

theorem not_counts_nil : ¬ Counts ([] : Table α) name e :=
  fun counts => nomatch counts.mem

/-- The last entry counts for its name; for other names it makes no difference. -/
theorem counts_concat {p : String × α} (h : Increasing (t ++ [p])) :
    Counts (t ++ [p]) name e ↔ if fold p.1 = name then e = p else Counts t name e := by
  have above : ∀ other ∈ t, other.1 < p.1 := by
    intro other mem
    rw [Increasing, keys, List.map_append, List.pairwise_append] at h
    exact h.2.2 other.1 (List.mem_map_of_mem mem) p.1 (by simp)
  have mem_iff : ∀ other, other ∈ t ++ [p] ↔ other ∈ t ∨ other = p := by simp
  split
  · next here =>
    constructor
    · intro counts
      refine ((mem_iff e).1 counts.mem).resolve_left fun mem => ?_
      -- an entry before the last one does not count
      exact String.not_lt.2 (counts.last p (by simp) here) (above e mem)
    · rintro rfl
      refine ⟨by simp, here, fun other mem _ => ?_⟩
      rcases (mem_iff other).1 mem with mem | rfl
      · exact String.not_lt.1 (String.lt_asymm (above other mem))
      · exact String.le_refl _
  · next elsewhere =>
    constructor
    · intro counts
      refine ⟨((mem_iff e).1 counts.mem).resolve_right fun same => ?_, counts.spelled,
        fun other mem => counts.last other ((mem_iff other).2 (.inl mem))⟩
      exact elsewhere (same ▸ counts.spelled)
    · intro counts
      refine ⟨(mem_iff e).2 (.inl counts.mem), counts.spelled, fun other mem same => ?_⟩
      rcases (mem_iff other).1 mem with mem | rfl
      · exact counts.last other mem same
      · exact absurd same elsewhere

theorem increasing_of_concat {p : String × α} (h : Increasing (t ++ [p])) : Increasing t := by
  rw [Increasing, keys, List.map_append, List.pairwise_append] at h
  exact h.1

/-- An entry counts for every name of an entry. -/
theorem exists_counts_iff (h : Increasing t) :
    (∃ e, Counts t name e) ↔ ∃ e ∈ t, fold e.1 = name := by
  refine ⟨fun ⟨e, counts⟩ => ⟨e, counts.mem, counts.spelled⟩, ?_⟩
  induction t using List.reverseRecOn with
  | nil => simp
  | append_singleton t p ih =>
    rintro ⟨e, mem, same⟩
    by_cases here : fold p.1 = name
    · exact ⟨p, (counts_concat h).2 (by rw [if_pos here])⟩
    · have before : e ∈ t :=
        (List.mem_append.1 mem).resolve_right fun single =>
          here (List.mem_singleton.1 single ▸ same)
      obtain ⟨e', counts⟩ := ih (increasing_of_concat h) ⟨e, before, same⟩
      exact ⟨e', (counts_concat h).2 (by rw [if_neg here]; exact counts)⟩

/-- A table that is filled from another one in folded names. -/
def folded (f : α → β) (t : Table α) : Table β :=
  t.foldl (fun out p => insert (fold p.1) (f p.2) out) []

theorem folded_concat (f : α → β) (t : Table α) (p : String × α) :
    folded f (t ++ [p]) = insert (fold p.1) (f p.2) (folded f t) :=
  List.foldl_concat _ _ _ _

/-- **What is found in folded names** is what the entry that counts makes. -/
theorem find?_folded {f : α → β} (h : Increasing t) {v : β} :
    find? (folded f t) name = some v ↔ ∃ e, Counts t name e ∧ f e.2 = v := by
  induction t using List.reverseRecOn with
  | nil => simp [folded, find?, not_counts_nil]
  | append_singleton t p ih =>
    simp only [folded_concat, find?_insert, counts_concat h]
    split
    · simp
    · exact ih (increasing_of_concat h)

end Table

/-! ## Descriptions -/

namespace Description

/-- The tables of a description are in the order of their keys. -/
structure Ordered (d : Description) : Prop where
  types : d.types.Increasing
  predicates : d.predicates.Increasing
  functions : d.functions.Increasing

theorem ordered_named (name : String) : (named name).Ordered :=
  ⟨.nil, .nil, .nil⟩

theorem Ordered.withType {d : Description} (h : d.Ordered) (name parent : String) :
    (d.withType name parent).Ordered :=
  { h with types := Table.increasing_insert h.types name parent }

theorem Ordered.withPredicate {d : Description} (h : d.Ordered) (name : String)
    (types : List String) : (d.withPredicate name types).Ordered :=
  { h with predicates := Table.increasing_insert h.predicates name types }

theorem Ordered.withFunction {d : Description} (h : d.Ordered) (name : String)
    (types : List String) : (d.withFunction name types).Ordered :=
  { h with functions := Table.increasing_insert h.functions name types }

/-- A table that is decoded, or left out, is in the order of its keys. -/
theorem increasing_of_entryOr? {α : Type} {entries : List (String × Toml)} {key : String}
    {read? : Toml → Option α} {t : Table α}
    (decoded : Toml.entryOr? entries key (Toml.table? read?) [] = some t) : t.Increasing := by
  rw [Toml.entryOr?] at decoded
  split at decoded
  · simp only [Toml.table?, Option.bind_eq_bind, Option.bind_eq_some_iff, Option.pure_def,
      Option.some.injEq] at decoded
    obtain ⟨_, _, values, _, rfl⟩ := decoded
    exact Table.increasing_ofList values
  · obtain rfl := Option.some.inj decoded
    exact .nil

/-- **What a text describes** has its tables in order. -/
theorem ordered_of_ofEntries? {entries : List (String × Toml)} {d : Description}
    (decoded : ofEntries? entries = some d) : d.Ordered := by
  simp only [ofEntries?, Option.bind_eq_bind, Option.bind_eq_some_iff, Option.pure_def,
    Option.some.injEq] at decoded
  obtain ⟨_, _, _, _, _, _, types, typesRead, predicates, predicatesRead, functions,
    functionsRead, _, _, rfl⟩ := decoded
  exact ⟨increasing_of_entryOr? typesRead, increasing_of_entryOr? predicatesRead,
    increasing_of_entryOr? functionsRead⟩

variable (d : Description)

/-- A type of the description, or the root type. -/
def IsType (t : String) : Prop :=
  t = Hierarchy.rootType ∨ ∃ e ∈ d.types, fold e.1 = t

/-- The parent of a type other than the root, by the entry that counts. -/
def Parent (t p : String) : Prop :=
  t ≠ Hierarchy.rootType ∧ ∃ e, d.types.Counts t e ∧ fold e.2 = p

/-- One type is below another: one or more steps from parent to parent lead there. -/
def Below : String → String → Prop :=
  TransGen d.Parent

/-- **A description of a domain**: parents are types, no type is above itself, and all types
that are used are there. Entries for parameters are all looked at, also those that do not
count. -/
structure WellTyped : Prop where
  parents : ∀ t p, d.Parent t p → d.IsType p
  acyclic : ∀ t, ¬ d.Below t t
  predicates : ∀ e ∈ d.predicates, ∀ t ∈ e.2, d.IsType (fold t)
  functions : ∀ e ∈ d.functions, ∀ t ∈ e.2, d.IsType (fold t)
  constants : ∀ e ∈ d.constants, d.IsType (fold e.1)

/-- **A position for a type** accepts this type and what is below it. One for the root type
accepts every type, and each accepts with a type all types below that. -/
structure Position (t : String) (s : Slot) : Prop where
  typeName : s.typeName = t
  accepts_iff : ∀ u, s.accepts u = true ↔ u = t ∨ d.Below u t
  accepts_of_root : t = Hierarchy.rootType → ∀ u, d.IsType u → s.accepts u = true
  accepts_below : ∀ u v, s.accepts u = true → d.Below v u → s.accepts v = true

/-- **The signatures of a table**: there is one for every spelling of a name that has an entry,
with a position for each parameter of the entry that counts. -/
structure Signatures (table : Table (List String)) (look : String → Option Signature) : Prop where
  declared : ∀ name, (look name).isSome = true ↔ ∃ e ∈ table, fold e.1 = fold name
  positions : ∀ name s, look name = some s → ∃ e, table.Counts (fold name) e ∧
    List.Forall₂ (fun t slot => d.Position (fold t) slot) e.2 s.slots

end Description

/-! ## The domain of a description -/

namespace Domain

open Hierarchy (rootType)

variable {types : Table String} {h : Hierarchy} {t p : String} {d : Description}

theorem hierarchyOf_concat (types : Table String) (e : String × String) :
    hierarchyOf (types ++ [e]) = if fold e.1 = rootType then hierarchyOf types
      else Table.insert (fold e.1) (some (fold e.2)) (hierarchyOf types) :=
  List.foldl_concat _ _ _ _

/-- The root type has no parent, whatever the table says. -/
theorem find?_hierarchyOf_root (types : Table String) :
    (hierarchyOf types).find? rootType = some none := by
  induction types using List.reverseRecOn with
  | nil => rfl
  | append_singleton types e ih =>
    rw [hierarchyOf_concat]
    split
    · exact ih
    · next other => rw [Table.find?_insert, if_neg other, ih]

/-- Any other type has the parent of the entry that counts. -/
theorem find?_hierarchyOf (increasing : types.Increasing) (other : t ≠ rootType)
    {v : Option String} :
    (hierarchyOf types).find? t = some v ↔ ∃ e, types.Counts t e ∧ some (fold e.2) = v := by
  induction types using List.reverseRecOn with
  | nil => simp [hierarchyOf, Table.find?, Table.not_counts_nil, other.symm]
  | append_singleton types e ih =>
    have before := ih (Table.increasing_of_concat increasing)
    simp only [hierarchyOf_concat, Table.counts_concat increasing]
    by_cases root : fold e.1 = rootType
    · have elsewhere : fold e.1 ≠ t := fun same => other (same.symm.trans root)
      rw [if_pos root, before]
      simp only [if_neg elsewhere]
    · rw [if_neg root, Table.find?_insert]
      split
      · simp
      · exact before

theorem up_hierarchyOf (ordered : d.Ordered) : (hierarchyOf d.types).Up = d.Parent := by
  funext t p
  rw [Hierarchy.Up, Hierarchy.parent?, Option.join_eq_some_iff, eq_iff_iff, Description.Parent]
  by_cases root : t = rootType
  · rw [root, find?_hierarchyOf_root]
    simp
  · rw [find?_hierarchyOf ordered.types root, and_iff_right root]
    simp only [Option.some.injEq]

theorem mem_keys_hierarchyOf (ordered : d.Ordered) :
    t ∈ Table.keys (hierarchyOf d.types) ↔ d.IsType t := by
  rw [Table.mem_keys_iff, Description.IsType]
  by_cases root : t = rootType
  · rw [root, find?_hierarchyOf_root]
    simp
  · rw [or_iff_right root, ← Table.exists_counts_iff ordered.types]
    simp only [find?_hierarchyOf ordered.types root]
    exact ⟨fun ⟨_, e, counts, _⟩ => ⟨e, counts⟩, fun ⟨e, counts⟩ => ⟨_, e, counts, rfl⟩⟩

theorem increasing_hierarchyOf (types : Table String) : Table.Increasing (hierarchyOf types) := by
  induction types using List.reverseRecOn with
  | nil => exact List.pairwise_singleton _ _
  | append_singleton types e ih =>
    rw [hierarchyOf_concat]
    split
    · exact ih
    · exact Table.increasing_insert ih _ _

/-! ### The checks -/

theorem orphan?_eq_none_iff (increasing : Table.Increasing h) :
    orphan? h = none ↔ ∀ t p, h.Up t p → p ∈ Table.keys h := by
  simp only [Hierarchy.Up, Hierarchy.parent?, Option.join_eq_some_iff,
    Table.find?_eq_some_iff increasing]
  rw [orphan?, List.findSome?_eq_none_iff]
  constructor
  · intro none_ t p mem
    have checked := none_ _ mem
    simp only [ite_eq_left_iff, reduceCtorEq, imp_false, not_not] at checked
    rwa [Table.hasKey, List.contains_iff_mem] at checked
  · rintro parents ⟨t, _ | p⟩ mem
    · rfl
    · have there := parents t p mem
      rw [← List.contains_iff_mem, ← Table.hasKey] at there
      simp [there]

theorem cyclic?_eq_none_iff :
    cyclic? h = none ↔ ∀ t ∈ Table.keys h, h.endsWithin h.length t = true := by
  rw [cyclic?, Option.map_eq_none_iff, List.find?_eq_none]
  simp

theorem symbolsOf_eq_ok_iff {kind : String} {table out : Table (List String)} :
    symbolsOf h kind table = .ok out ↔
      (∀ e ∈ table, ∀ t ∈ e.2, fold t ∈ Table.keys h) ∧ out = table.folded (List.map fold) := by
  rw [symbolsOf, Table.folded]
  refine foldlM_eq_ok_iff fun b e c => ?_
  have good_iff : (∀ t ∈ e.2, fold t ∈ Table.keys h) ↔
      (e.2.map fold).find? (fun t => !h.hasKey t) = none := by
    simp [List.find?_eq_none, Table.hasKey]
  rw [good_iff]
  cases missing : (e.2.map fold).find? fun t => !h.hasKey t with
  | none => simp only [missing, Except.ok.injEq, true_and, eq_comm]
  | some t => simp only [missing, reduceCtorEq, false_and]

theorem constantsOf_eq_ok_iff {table : Table (List String)} {out : List Entity} :
    constantsOf h table = .ok out ↔ (∀ e ∈ table, fold e.1 ∈ Table.keys h) ∧
      out = table.foldl (fun out p => out ++ p.2.map fun n => ⟨fold n, fold p.1⟩) [] := by
  rw [constantsOf]
  refine foldlM_eq_ok_iff fun b e c => ?_
  by_cases there : fold e.1 ∈ Table.keys h <;> simp [Table.hasKey, there, eq_comm]

/-- **A domain is made** when all checks are passed. -/
theorem ofDescription_eq_ok_iff {dom : Domain} : ofDescription d = .ok dom ↔
    orphan? (hierarchyOf d.types) = none ∧ cyclic? (hierarchyOf d.types) = none ∧
      ∃ predicates, symbolsOf (hierarchyOf d.types) "predicate" d.predicates = .ok predicates ∧
      ∃ functions, symbolsOf (hierarchyOf d.types) "function" d.functions = .ok functions ∧
      ∃ constants, constantsOf (hierarchyOf d.types) d.constants = .ok constants ∧
        ⟨fold d.name, d.requirements.map fold, hierarchyOf d.types, predicates, functions,
          constants⟩ = dom := by
  rw [ofDescription]
  cases orphan? (hierarchyOf d.types) with
  | some e => simp [bind, Except.bind, throw, throwThe, MonadExceptOf.throw]
  | none =>
    cases cyclic? (hierarchyOf d.types) with
    | some e => simp [bind, Except.bind, throw, throwThe, MonadExceptOf.throw]
    | none =>
      simp only [true_and]
      refine bind_eq_ok_iff.trans (exists_congr fun predicates => and_congr_right fun _ => ?_)
      refine bind_eq_ok_iff.trans (exists_congr fun functions => and_congr_right fun _ => ?_)
      refine bind_eq_ok_iff.trans (exists_congr fun constants => and_congr_right fun _ => ?_)
      exact ⟨Except.ok.inj, congrArg _⟩

theorem closed_hierarchyOf (ordered : d.Ordered) (parents : ∀ t p, d.Parent t p → d.IsType p) :
    Hierarchy.Closed (hierarchyOf d.types) where
  parents {t p} step := (mem_keys_hierarchyOf ordered).2 (parents t p (up_hierarchyOf ordered ▸ step))
  nonempty none_ := by
    have root := find?_hierarchyOf_root d.types
    rw [none_] at root
    cases root

/-- The checks of the hierarchy ask that parents are types and that there is no cycle. -/
theorem checks_eq_none_iff (ordered : d.Ordered) :
    (orphan? (hierarchyOf d.types) = none ∧ cyclic? (hierarchyOf d.types) = none) ↔
      (∀ t p, d.Parent t p → d.IsType p) ∧ ∀ t, ¬ d.Below t t := by
  rw [orphan?_eq_none_iff (increasing_hierarchyOf _), cyclic?_eq_none_iff]
  simp only [up_hierarchyOf ordered, mem_keys_hierarchyOf ordered]
  refine and_congr_right fun parents => ?_
  have acyclic := (closed_hierarchyOf ordered parents).forall_endsWithin_iff
  simp only [up_hierarchyOf ordered, mem_keys_hierarchyOf ordered] at acyclic
  exact acyclic

/-- **Which descriptions make a domain.** -/
theorem exists_ofDescription_iff (ordered : d.Ordered) :
    (∃ dom, ofDescription d = .ok dom) ↔ d.WellTyped := by
  simp only [ofDescription_eq_ok_iff, symbolsOf_eq_ok_iff, constantsOf_eq_ok_iff,
    mem_keys_hierarchyOf ordered, ← and_assoc, checks_eq_none_iff ordered]
  constructor
  · rintro ⟨_, ⟨parents, acyclic⟩, _, ⟨predicates, _⟩, _, ⟨functions, _⟩, _, ⟨constants, _⟩, _⟩
    exact ⟨parents, acyclic, predicates, functions, constants⟩
  · intro h
    exact ⟨_, ⟨h.parents, h.acyclic⟩, _, ⟨h.predicates, rfl⟩, _, ⟨h.functions, rfl⟩, _,
      ⟨h.constants, rfl⟩, rfl⟩

/-! ### Subtypes and signatures -/

/-- The domain of a description has its types, predicates and functions, in folded names. -/
theorem tables_of_ofDescription {dom : Domain} (described : ofDescription d = .ok dom) :
    dom.hierarchy = hierarchyOf d.types ∧ dom.predicates = d.predicates.folded (List.map fold) ∧
      dom.functions = d.functions.folded (List.map fold) := by
  obtain ⟨_, _, _, predicates, _, functions, _, _, rfl⟩ := ofDescription_eq_ok_iff.1 described
  exact ⟨rfl, (symbolsOf_eq_ok_iff.1 predicates).2, (symbolsOf_eq_ok_iff.1 functions).2⟩

/-- A position of a signature accepts what is below its type. -/
theorem position_slot {dom : Domain} (root : ∀ u, d.IsType u → u = rootType ∨ d.Below u rootType)
    (subtypes : ∀ t u, u ∈ dom.subtypes t ↔ d.Below u t) (t : String) :
    d.Position t ⟨t, dom.subtypes t⟩ := by
  have accepts : ∀ u, (Slot.mk t (dom.subtypes t)).accepts u = true ↔ u = t ∨ d.Below u t := by
    intro u
    rw [Slot.accepts, Bool.or_eq_true, beq_iff_eq, List.contains_iff_mem, subtypes, eq_comm]
  refine ⟨rfl, accepts, fun isRoot u isType => ?_, fun u v accepted below => ?_⟩
  · rw [accepts, isRoot]
    exact root u isType
  · rcases (accepts u).1 accepted with rfl | above
    · exact (accepts v).2 (.inr below)
    · exact (accepts v).2 (.inr (below.trans above))

/-- **The signatures of a table** come from the entries that count. -/
theorem signatures_folded {dom : Domain} {table : Table (List String)}
    (increasing : table.Increasing)
    (position : ∀ t, d.Position t ⟨t, dom.subtypes t⟩) :
    d.Signatures table fun name =>
      ((table.folded (List.map fold)).find? (fold name)).map (dom.signature (fold name)) where
  declared name := by
    rw [Option.isSome_map, Option.isSome_iff_exists, ← Table.exists_counts_iff increasing]
    simp only [Table.find?_folded increasing]
    exact ⟨fun ⟨_, e, counts, _⟩ => ⟨e, counts⟩, fun ⟨e, counts⟩ => ⟨_, e, counts, rfl⟩⟩
  positions name s found := by
    obtain ⟨types, entry, rfl⟩ := Option.map_eq_some_iff.1 found
    obtain ⟨e, counts, rfl⟩ := (Table.find?_folded increasing).1 entry
    refine ⟨e, counts, ?_⟩
    rw [signature, List.map_map, List.forall₂_map_right_iff, List.forall₂_same]
    exact fun t _ => position (fold t)

/-- The way up from a type ends at the root type. -/
theorem eq_root_or_below (ordered : d.Ordered) (parents : ∀ t p, d.Parent t p → d.IsType p)
    {ancestors : List String} (climb : (hierarchyOf d.types).Climb t ancestors)
    (isType : d.IsType t) : t = rootType ∨ d.Below t rootType := by
  induction climb with
  | @top t parentless =>
    refine Classical.byContradiction fun neither => ?_
    obtain ⟨other, _⟩ := not_or.1 neither
    -- a type that is not the root has an entry that counts, and thus a parent
    obtain ⟨e, counts⟩ := (Table.exists_counts_iff ordered.types).2 (isType.resolve_left other)
    have step : (hierarchyOf d.types).Up t (fold e.2) := by
      rw [up_hierarchyOf ordered]
      exact ⟨other, e, counts, rfl⟩
    cases parentless.symm.trans step
  | up step _ ih =>
    rw [up_hierarchyOf ordered] at step
    rcases ih (parents _ _ step) with rfl | above
    · exact .inr (.single step)
    · exact .inr (.head step above)

/-- **The hierarchy of types**, of every description. A domain is made of it exactly if every
parent is a type, no type is above itself, and the types of all parameters and constants are
there. In a domain that is made the way up ends from every name, and the ancestors that it
works with are all that are passed on it; the subtypes of a type are the types below it, each
once and in the order of their names; and the positions of a signature are those of the entry
that counts for its name, each of which accepts its type and what is below. -/
theorem types_of_description (d : Description) (ordered : d.Ordered) :
    ((∃ dom, ofDescription d = .ok dom) ↔ d.WellTyped) ∧
      ∀ dom, ofDescription d = .ok dom →
        (∀ t, dom.declares t = true ↔ d.IsType t) ∧
        (∀ t, dom.hierarchy.Climb t (dom.hierarchy.ancestors t)) ∧
        (∀ t, (dom.subtypes t).Pairwise (· < ·) ∧ ∀ u, u ∈ dom.subtypes t ↔ d.Below u t) ∧
        d.Signatures d.predicates dom.predicate? ∧ d.Signatures d.functions dom.function? := by
  refine ⟨exists_ofDescription_iff ordered, fun dom described => ?_⟩
  obtain ⟨parents, acyclic, _, _, _⟩ := (exists_ofDescription_iff ordered).1 ⟨dom, described⟩
  obtain ⟨hierarchy, predicates, functions⟩ := tables_of_ofDescription described
  have up : dom.hierarchy.Up = d.Parent := by rw [hierarchy, up_hierarchyOf ordered]
  have closed : dom.hierarchy.Closed := hierarchy ▸ closed_hierarchyOf ordered parents
  have noCycle : ∀ t, ¬ TransGen dom.hierarchy.Up t t := up ▸ acyclic
  have climb : ∀ t, dom.hierarchy.Climb t (dom.hierarchy.ancestors t) :=
    fun t => Hierarchy.climb_ancestorsWithin (closed.endsWithin_length noCycle t) (Nat.le_refl _)
  have subtypes : ∀ t u, u ∈ dom.subtypes t ↔ d.Below u t := by
    intro t u
    rw [subtypes, closed.mem_subtypes_iff noCycle, up, Description.Below]
  have root : ∀ u, d.IsType u → u = rootType ∨ d.Below u rootType :=
    fun u => eq_root_or_below ordered parents (hierarchy ▸ climb u)
  have position := position_slot root subtypes
  refine ⟨fun t => ?_, climb, fun t => ⟨?_, subtypes t⟩, ?_, ?_⟩
  · rw [declares, Table.hasKey, List.contains_iff_mem, hierarchy, mem_keys_hierarchyOf ordered]
  · exact Hierarchy.pairwise_subtypes (hierarchy ▸ increasing_hierarchyOf d.types) t
  · have positions := signatures_folded ordered.predicates position
    rwa [← predicates] at positions
  · have positions := signatures_folded ordered.functions position
    rwa [← functions] at positions

/-- Two spellings of one type, of which the last one counts, and a parent for the root type. -/
def rooms : Description :=
  (Description.named "Rooms").withType "Object" "ghost" |>.withType "room" "object"
    |>.withType "CORRIDOR" "nowhere" |>.withType "corridor" " Room " |>.withType "hallway" "Corridor"
    |>.withPredicate "Clear" ["ROOM"]

theorem types_of_description_rooms :
    rooms.Ordered ∧ rooms.WellTyped ∧ rooms.Below "hallway" "room" := by
  have ordered : rooms.Ordered := (Description.ordered_named _).withType _ _ |>.withType _ _
    |>.withType _ _ |>.withType _ _ |>.withType _ _ |>.withPredicate _ _
  obtain ⟨made, answers⟩ := types_of_description rooms ordered
  have listed : (ofDescription rooms).toOption.map (·.subtypes "room") =
      some ["corridor", "hallway"] := by decide +kernel
  obtain ⟨dom, described, subtypes⟩ := exists_ok_of_map_toOption listed
  have below := ((answers dom described).2.2.1 "room").2 "hallway"
  rw [subtypes] at below
  exact ⟨ordered, made.1 ⟨dom, described⟩, below.1 (by decide)⟩

end Domain

end WorldModel
