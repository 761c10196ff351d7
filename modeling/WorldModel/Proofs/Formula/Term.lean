/-
Terms as trees.

Terms are defined with lists of terms below a kind, and what recurs on them recurs on
lists beside them. The principle of induction here asks for nothing beyond one case, with
the hypothesis for all terms of the list (`Term.induction`), and the lists are the
ordinary ones: the kinds of several terms are the kinds of each of them in a row
(`kindsAll_eq`), and so on.

Two things about terms are used throughout. Renaming the atoms of a term goes from top to
bottom and changes the shape of nothing (`mapKinds`). And a term is bare when nothing
stands below an atom or a number (`Bare`), as it is in every formula that can be written
down; only then is what a term shows all there is to it.
-/
import Mathlib.Data.List.Forall2
import WorldModel.Formula.Term
import WorldModel.Proofs.Number.Equality

set_option autoImplicit false

namespace WorldModel

/-! ## Lists side by side -/

section SideBySide

variable {α β : Type} {R : α → β → Prop} {as : List α} {bs : List β}

/-- What stands on the left of two lists stands beside something on the right. -/
theorem exists_mem_of_forall₂ (each : List.Forall₂ R as bs) {a : α} (mem : a ∈ as) :
    ∃ b ∈ bs, R a b := by
  induction each with
  | nil => exact absurd mem List.not_mem_nil
  | cons first _ ih =>
    rcases List.mem_cons.1 mem with rfl | mem
    · exact ⟨_, List.mem_cons_self, first⟩
    · obtain ⟨b, inside, pair⟩ := ih mem
      exact ⟨b, List.mem_cons_of_mem _ inside, pair⟩

/-- Where everything has something to stand beside, there is a list of these. -/
theorem exists_forall₂ (each : ∀ a ∈ as, ∃ b, R a b) : ∃ bs, List.Forall₂ R as bs := by
  induction as with
  | nil => exact ⟨[], .nil⟩
  | cons a as ih =>
    obtain ⟨first, later⟩ := List.forall_mem_cons.1 each
    obtain ⟨b, pair⟩ := first
    obtain ⟨bs, pairs⟩ := ih later
    exact ⟨b :: bs, .cons pair pairs⟩

/-- Where something is made of everything, what is made stands beside it. -/
theorem forall₂_filterMap {f : α → Option β} (each : ∀ a ∈ as, ∃ b, f a = some b ∧ R a b) :
    List.Forall₂ R as (as.filterMap f) := by
  induction as with
  | nil => exact .nil
  | cons a as ih =>
    obtain ⟨⟨b, made, pair⟩, later⟩ := List.forall_mem_cons.1 each
    rw [List.filterMap_cons_some made]
    exact .cons pair (ih later)

/-- What is made of everything on the left is what stands on the right. -/
theorem filterMap_eq_of_forall₂ {f : α → Option β} (each : List.Forall₂ (fun a b => f a = some b) as bs) :
    as.filterMap f = bs := by
  induction each with
  | nil => rfl
  | cons first _ ih => rw [List.filterMap_cons_some first, ih]

/-- Of what stands in two lists it may be used that it does. -/
theorem forall₂_imp_of_mem {S : α → β → Prop} (each : List.Forall₂ R as bs)
    (imp : ∀ a ∈ as, ∀ b ∈ bs, R a b → S a b) : List.Forall₂ S as bs := by
  induction each with
  | nil => exact .nil
  | cons first _ ih =>
    refine .cons (imp _ List.mem_cons_self _ List.mem_cons_self first) (ih fun a inA b inB => ?_)
    exact imp a (List.mem_cons_of_mem _ inA) b (List.mem_cons_of_mem _ inB)

/-- Where something is made of everything in two lists, what is made stands side by side as they do. -/
theorem forall₂_filterMap_iff {γ δ : Type} {f : α → Option γ} {g : β → Option δ} {S : γ → δ → Prop}
    (left : ∀ a ∈ as, ∃ c, f a = some c) (right : ∀ b ∈ bs, ∃ d, g b = some d)
    (pairs : ∀ a ∈ as, ∀ b ∈ bs, ∀ c d, f a = some c → g b = some d → (S c d ↔ R a b)) :
    List.Forall₂ S (as.filterMap f) (bs.filterMap g) ↔ List.Forall₂ R as bs := by
  induction as generalizing bs with
  | nil =>
    cases bs with
    | nil => exact iff_of_true .nil .nil
    | cons b bs =>
      obtain ⟨d, second⟩ := right b List.mem_cons_self
      rw [List.filterMap_nil, List.filterMap_cons_some second]
      exact iff_of_false nofun nofun
  | cons a as ih =>
    obtain ⟨⟨c, first⟩, lefts⟩ := List.forall_mem_cons.1 left
    rw [List.filterMap_cons_some first]
    cases bs with
    | nil => exact iff_of_false nofun nofun
    | cons b bs =>
      obtain ⟨⟨d, second⟩, rights⟩ := List.forall_mem_cons.1 right
      rw [List.filterMap_cons_some second, List.forall₂_cons, List.forall₂_cons,
        pairs a List.mem_cons_self b List.mem_cons_self c d first second]
      refine and_congr_right fun _ => ih lefts rights fun a' mem b' mem' => ?_
      exact pairs a' (List.mem_cons_of_mem a mem) b' (List.mem_cons_of_mem b mem')

end SideBySide

/-- The kind does not name the object. -/
def NodeKind.Silent (object : String) : NodeKind → Prop
  | predicate l => l.mentions object = false
  | function f => f.mentions object = false
  | _ => True

namespace Term

/-! ## Induction -/

/-- **Induction over terms**: what holds of a term when it holds of all its subterms
holds of every term. -/
@[elab_as_elim, induction_eliminator]
theorem induction {motive : Term → Prop}
    (node : ∀ k cs, (∀ c ∈ cs, motive c) → motive (.node k cs)) (t : Term) : motive t :=
  Term.rec (motive_1 := motive) (motive_2 := fun cs => ∀ c ∈ cs, motive c) node
    (fun _ mem => absurd mem List.not_mem_nil)
    (fun _ _ first later => List.forall_mem_cons.2 ⟨first, later⟩) t

/-! ## Several terms -/

theorem kindsAll_eq (ts : List Term) : kindsAll ts = ts.flatMap kinds := by
  induction ts with
  | nil => rfl
  | cons t ts ih => rw [kindsAll, ih, List.flatMap_cons]

theorem kinds_node (k : NodeKind) (cs : List Term) :
    (node k cs).kinds = k :: cs.flatMap kinds := by
  rw [kinds, kindsAll_eq]

/-- What holds of all kinds of a term holds of those of a subterm. -/
theorem forall_kinds_node {P : NodeKind → Prop} {k : NodeKind} {cs : List Term} :
    (∀ l ∈ (node k cs).kinds, P l) ↔ P k ∧ ∀ c ∈ cs, ∀ l ∈ c.kinds, P l := by
  rw [kinds_node, List.forall_mem_cons]
  refine and_congr_right fun _ => ⟨fun h c mem l inside => ?_, fun h l mem => ?_⟩
  · exact h l (List.mem_flatMap.2 ⟨c, mem, inside⟩)
  · obtain ⟨c, mem, inside⟩ := List.mem_flatMap.1 mem
    exact h c mem l inside

theorem sameAll_iff {ts us : List Term} :
    sameAll ts us = true ↔ List.Forall₂ (fun t u => t.same u = true) ts us := by
  induction ts generalizing us with
  | nil => cases us <;> simp [sameAll]
  | cons t ts ih => cases us <;> simp [sameAll, ih]

/-- Terms that are equal to some term have no numbers in them that are not. -/
theorem isNaN_of_same {t u : Term} (h : t.same u = true) :
    ∀ x, .number x ∈ t.kinds → x.isNaN = false := by
  suffices all : ∀ k ∈ t.kinds, ∀ x, k = .number x → x.isNaN = false from
    fun x mem => all _ mem x rfl
  induction t generalizing u with
  | node k cs ih =>
    obtain ⟨l, ds⟩ := u
    rw [same, Bool.and_eq_true, sameAll_iff] at h
    refine forall_kinds_node.2 ⟨?_, fun c mem => ?_⟩
    · rintro x rfl
      cases l with
      | number y => exact Number.isNaN_of_beq h.1
      | _ => cases h.1
    · obtain ⟨d, _, pair⟩ := exists_mem_of_forall₂ h.2 mem
      exact ih c mem pair

/-! ## Atoms -/

theorem mem_literals {t : Term} {l : Literal} : l ∈ t.literals ↔ .predicate l ∈ t.kinds := by
  rw [literals, List.mem_filterMap]
  refine ⟨fun ⟨k, mem, content⟩ => ?_, fun mem => ⟨_, mem, rfl⟩⟩
  cases k <;> cases content
  exact mem

theorem mem_fluents {t : Term} {f : Fluent} : f ∈ t.fluents ↔ .function f ∈ t.kinds := by
  rw [fluents, List.mem_filterMap]
  refine ⟨fun ⟨k, mem, content⟩ => ?_, fun mem => ⟨_, mem, rfl⟩⟩
  cases k <;> cases content
  exact mem

/-- **A term that does not name** an object has no atom that names it. -/
theorem mentions_eq_false_iff {t : Term} {object : String} :
    t.mentions object = false ↔ (∀ l ∈ t.literals, l.mentions object = false) ∧
      ∀ f ∈ t.fluents, f.mentions object = false := by
  rw [mentions, Bool.or_eq_false_iff]
  simp only [List.any_eq_false, Bool.not_eq_true]

theorem mentions_eq_false_iff_silent {t : Term} {object : String} :
    t.mentions object = false ↔ ∀ k ∈ t.kinds, k.Silent object := by
  rw [mentions_eq_false_iff]
  constructor
  · rintro ⟨literals, fluents⟩ k mem
    match k with
    | .predicate l => exact literals l (mem_literals.2 mem)
    | .function f => exact fluents f (mem_fluents.2 mem)
    | .and | .or | .not | .unknown | .oneOf | .expression _ | .update _ | .number _ => trivial
  · intro silent
    constructor
    · intro l mem
      exact silent _ (mem_literals.1 mem)
    · intro f mem
      exact silent _ (mem_fluents.1 mem)

/-- A conjunction or disjunction names what its parts name. -/
theorem mentions_node_eq_false_iff {k : NodeKind} (top : k = .and ∨ k = .or) {cs : List Term}
    {object : String} : (node k cs).mentions object = false ↔
      ∀ c ∈ cs, c.mentions object = false := by
  have quiet : k.Silent object := by rcases top with rfl | rfl <;> trivial
  simp only [mentions_eq_false_iff_silent, forall_kinds_node]
  exact and_iff_right quiet

/-! ## Another kind for every node -/

mutual

/-- The term of the same shape with every kind replaced. -/
def mapKinds (g : NodeKind → NodeKind) : Term → Term
  | node k cs => node (g k) (mapKindsAll g cs)

/-- The terms of the same shapes with every kind replaced. -/
def mapKindsAll (g : NodeKind → NodeKind) : List Term → List Term
  | [] => []
  | t :: ts => mapKinds g t :: mapKindsAll g ts

end

variable (g : NodeKind → NodeKind)

theorem mapKindsAll_eq (ts : List Term) : mapKindsAll g ts = ts.map (mapKinds g) := by
  induction ts with
  | nil => rfl
  | cons t ts ih => rw [mapKindsAll, ih, List.map_cons]

theorem mapKinds_node (k : NodeKind) (cs : List Term) :
    (node k cs).mapKinds g = node (g k) (cs.map (mapKinds g)) := by
  rw [mapKinds, mapKindsAll_eq]

theorem mapKinds_mapKinds (h : NodeKind → NodeKind) (t : Term) :
    (t.mapKinds g).mapKinds h = t.mapKinds (h ∘ g) := by
  induction t with
  | node k cs ih =>
    rw [mapKinds_node, mapKinds_node, mapKinds_node, List.map_map, Function.comp_apply]
    exact congrArg _ (List.map_congr_left ih)

theorem kinds_mapKinds (t : Term) : (t.mapKinds g).kinds = t.kinds.map g := by
  induction t with
  | node k cs ih =>
    rw [mapKinds_node, kinds_node, kinds_node, List.map_cons, List.map_flatMap, List.flatMap_map,
      List.flatMap_congr ih]

variable {g}

/-- A term equals one of the same shape when each kind equals the one in its place. -/
theorem same_mapKinds {t : Term} (each : ∀ k ∈ t.kinds, k.same (g k) = true) :
    t.same (t.mapKinds g) = true := by
  induction t with
  | node k cs ih =>
    obtain ⟨top, below⟩ := forall_kinds_node.1 each
    rw [mapKinds_node, same, Bool.and_eq_true, sameAll_iff, List.forall₂_map_right_iff,
      List.forall₂_same]
    exact ⟨top, fun c mem => ih c mem (below c mem)⟩

/-! ## Bare terms -/

/-- **A bare term** has nothing below its atoms and numbers. -/
inductive Bare : Term → Prop
  | node {k : NodeKind} {cs : List Term} (leaf : k.keyword? = none → cs = [])
      (below : ∀ c ∈ cs, Bare c) : Bare (.node k cs)

theorem Bare.of_keyword {k : NodeKind} {cs : List Term} (word : k.keyword? ≠ none)
    (below : ∀ c ∈ cs, c.Bare) : (Term.node k cs).Bare :=
  .node (fun leaf => absurd leaf word) below

/-- A bare term stays bare when leaves are replaced by leaves. -/
theorem Bare.mapKinds {t : Term} (bare : t.Bare) (leaves : ∀ k, (g k).keyword? = k.keyword?) :
    (t.mapKinds g).Bare := by
  induction bare with
  | node leaf _ ih =>
    rw [mapKinds_node]
    refine .node (fun none_ => ?_) fun c mem => ?_
    · rw [leaf (by rw [← leaves]; exact none_), List.map_nil]
    · obtain ⟨d, inside, rfl⟩ := List.mem_map.1 mem
      exact ih d inside

theorem bare_of_mapKinds {t : Term} (leaves : ∀ k, (g k).keyword? = k.keyword?)
    (bare : (t.mapKinds g).Bare) : t.Bare := by
  induction t with
  | node k cs ih =>
    rw [mapKinds_node] at bare
    obtain ⟨leaf, below⟩ := bare
    refine .node (fun none_ => ?_) fun c mem => ih c mem (below _ (List.mem_map_of_mem mem))
    exact List.map_eq_nil_iff.1 (leaf (by rw [leaves, none_]))

/-! ## Flat terms -/

/-- The term of one kind over literals, each of them a leaf. -/
def flat (k : NodeKind) (ls : List Literal) : Term :=
  .node k (ls.map fun l => .node (.predicate l) [])

theorem kinds_flat (k : NodeKind) (ls : List Literal) :
    (flat k ls).kinds = k :: ls.map NodeKind.predicate := by
  rw [flat, kinds_node, List.flatMap_map, ← List.flatMap_singleton' (ls.map NodeKind.predicate),
    List.flatMap_map]
  rfl

theorem mapKinds_flat (k : NodeKind) (ls : List Literal) {h : Literal → Literal}
    (atoms : ∀ l, g (.predicate l) = .predicate (h l)) :
    (flat k ls).mapKinds g = flat (g k) (ls.map h) := by
  have leaves : ∀ l, (node (.predicate l) []).mapKinds g = node (.predicate (h l)) [] := by
    intro l
    rw [mapKinds_node, atoms, List.map_nil]
  rw [flat, mapKinds_node, List.map_map, flat, List.map_map]
  exact congrArg _ (List.map_congr_left fun l _ => leaves l)

theorem number_notMem_flat {k : NodeKind} (head : k.keyword? ≠ none) (ls : List Literal)
    (x : Float) : .number x ∉ (flat k ls).kinds := by
  rw [kinds_flat]
  intro mem
  rcases List.mem_cons.1 mem with rfl | mem
  · exact head rfl
  · obtain ⟨l, _, other⟩ := List.mem_map.1 mem
    cases other

theorem bare_flat {k : NodeKind} (head : k.keyword? ≠ none) (ls : List Literal) :
    (flat k ls).Bare := by
  refine .of_keyword head fun c mem => ?_
  obtain ⟨l, _, rfl⟩ := List.mem_map.1 mem
  exact .node (fun _ => rfl) fun c mem => absurd mem List.not_mem_nil

theorem literals_flat {k : NodeKind} (head : k.literal? = none) (ls : List Literal) :
    (flat k ls).literals = ls := by
  rw [literals, kinds_flat, List.filterMap_cons_none head, List.filterMap_map]
  exact List.filterMap_some

theorem fluents_flat {k : NodeKind} (head : k.fluent? = none) (ls : List Literal) :
    (flat k ls).fluents = [] := by
  rw [fluents, kinds_flat, List.filterMap_cons_none head, List.filterMap_map]
  exact List.filterMap_eq_nil_iff.2 fun _ _ => rfl

end Term

end WorldModel
