/-
What unfolding shows of a formula.

The term of a formula is what it means, and the operations on formulas are seen through
it: renaming the atoms of all nodes renames those of the term (`term?_renameAtoms`), and
what is bare as an array unfolds to a bare term (`bare_of_bareLeaves`).

Unfolding goes as deep as there are nodes, and for one node the same depth is used as for
the root above it. So the term of the root shows its children one level shorter than they
are shown from themselves, and the two agree only where the unfolding has come to an end
(`Whole`). In an array without cycles it always has: a path deeper than the number of
nodes would meet one of them twice (`unfoldWithin_succ_of_reached`). The formula of a term is
such an array, and it has bare leaves if the term is bare (`acyclic_ofTerm`,
`bareLeaves_ofTerm`).
-/
import Mathlib.Data.List.Chain
import Mathlib.Logic.Relation
import WorldModel.Formula.Numbering
import WorldModel.Proofs.Formula.Term

set_option autoImplicit false

namespace WorldModel.Formula

open Term (nodesFrom nodesFromAll tops sizeAll length_nodesFrom)

/-! ## Empty formulas -/

theorem isEmpty_iff_root? {f : Formula} : f.isEmpty = true ↔ f.root? = none := by
  rw [isEmpty, root?, node?, Array.getElem?_eq_none_iff, Array.isEmpty_iff_size_eq_zero,
    Nat.le_zero]

/-! ## One level -/

theorem unfoldWithin_of_node? {f : Formula} {id : Nat} {n : Node} (found : f.node? id = some n)
    (depth : Nat) : f.unfoldWithin (depth + 1) id =
      some (.node n.kind (n.children.filterMap (f.unfoldWithin depth))) := by
  rw [unfoldWithin, found, Option.map_some]

theorem unfoldWithin_of_none {f : Formula} {id : Nat} (missing : f.node? id = none)
    (depth : Nat) : f.unfoldWithin depth id = none := by
  cases depth with
  | zero => rfl
  | succ depth => rw [unfoldWithin, missing, Option.map_none]

/-- A formula with a node has room for one level at least. -/
theorem size_pos_of_node? {f : Formula} {id : Nat} {n : Node} (found : f.node? id = some n) :
    ∃ depth, f.size = depth + 1 := by
  obtain ⟨inside, _⟩ := Array.getElem?_eq_some_iff.1 found
  exact ⟨f.size - 1, by rw [size]; omega⟩

theorem term?_of_root? {f : Formula} {n : Node} (found : f.root? = some n) :
    f.term? = some (.node n.kind (n.children.filterMap (f.unfoldWithin (f.size - 1)))) := by
  obtain ⟨depth, eq⟩ := size_pos_of_node? found
  rw [term?, unfold, eq, unfoldWithin_of_node? found]
  rfl

/-- A formula has a term when it is not empty. -/
theorem term?_eq_none_iff {f : Formula} : f.term? = none ↔ f.isEmpty = true := by
  rw [isEmpty_iff_root?]
  cases found : f.root? with
  | none => simp [term?, unfold, unfoldWithin_of_none found]
  | some n => simp [term?_of_root? found]

theorem isEmpty_eq_false_iff {f : Formula} : f.isEmpty = false ↔ ∃ t, f.term? = some t := by
  rw [← Bool.not_eq_true, ← term?_eq_none_iff, ← Ne, Option.ne_none_iff_exists']

theorem term?_ofTerm? (o : Option Term) : (ofTerm? o).term? = o := by
  cases o with
  | none => rfl
  | some t => exact term?_ofTerm t

theorem root?_ofTerm (t : Term) :
    (ofTerm t).root? = some ⟨0, t.kind, Term.tops 1 t.children⟩ := by
  obtain ⟨k, cs⟩ := t
  simp [ofTerm, root?, node?, Term.nodesFrom, Term.kind, Term.children]

/-! ## Atoms -/

theorem literals_of_term? {f : Formula} {t : Term} (h : f.term? = some t) :
    f.literals = t.literals := by
  rw [literals, literalsUnder, ← term?, h]

theorem fluents_of_term? {f : Formula} {t : Term} (h : f.term? = some t) :
    f.fluents = t.fluents := by
  rw [fluents, fluentsUnder, ← term?, h]

theorem mentions_of_term? {f : Formula} {t : Term} (h : f.term? = some t) (object : String) :
    f.mentions object = t.mentions object := by
  rw [mentions, literals_of_term? h, fluents_of_term? h, Term.mentions]

/-- An empty formula has no atoms. -/
theorem atoms_of_term?_eq_none {f : Formula} (h : f.term? = none) :
    f.literals = [] ∧ f.fluents = [] := by
  rw [term?] at h
  simp [literals, fluents, literalsUnder, fluentsUnder, h]

theorem mentions_of_term?_eq_none {f : Formula} (h : f.term? = none) (object : String) :
    f.mentions object = false := by
  obtain ⟨literals, fluents⟩ := atoms_of_term?_eq_none h
  rw [mentions, literals, fluents]
  rfl

/-- What names an object is not empty. -/
theorem exists_root_of_mentions {f : Formula} {object : String} (names : f.mentions object = true) :
    ∃ n, f.root? = some n := by
  rw [← Option.ne_none_iff_exists', Ne, ← isEmpty_iff_root?, ← term?_eq_none_iff]
  intro none_
  rw [mentions_of_term?_eq_none none_] at names
  cases names

/-! ## Renaming -/

section Renaming

variable (f : Formula) (literalName fluentName : String → String)

theorem node?_renameAtoms (id : Nat) : (f.renameAtoms literalName fluentName).node? id =
    (f.node? id).map fun n => { n with kind := n.kind.rename literalName fluentName } := by
  rw [renameAtoms, node?, Array.getElem?_map, node?]

theorem size_renameAtoms : (f.renameAtoms literalName fluentName).size = f.size := by
  rw [renameAtoms, size, Array.size_map, size]

/-- **Renaming the nodes** renames what they unfold to. -/
theorem unfoldWithin_renameAtoms (depth id : Nat) :
    (f.renameAtoms literalName fluentName).unfoldWithin depth id =
      (f.unfoldWithin depth id).map (Term.mapKinds (NodeKind.rename literalName fluentName)) := by
  induction depth generalizing id with
  | zero => rfl
  | succ depth ih =>
    rw [unfoldWithin, unfoldWithin, node?_renameAtoms]
    cases f.node? id with
    | none => rfl
    | some n =>
      simp only [Option.map_some, Term.mapKinds_node, List.map_filterMap, ← ih]

theorem term?_renameAtoms : (f.renameAtoms literalName fluentName).term? =
    f.term?.map (Term.mapKinds (NodeKind.rename literalName fluentName)) := by
  rw [term?, unfold, size_renameAtoms, unfoldWithin_renameAtoms, term?, unfold]

theorem isEmpty_renameAtoms : (f.renameAtoms literalName fluentName).isEmpty = f.isEmpty := by
  rw [Bool.eq_iff_iff, renameAtoms, isEmpty, isEmpty, Array.isEmpty_iff_size_eq_zero,
    Array.isEmpty_iff_size_eq_zero, Array.size_map]

end Renaming

theorem renameAtoms_eq_self {f : Formula} {literalName fluentName : String → String}
    (h : ∀ n ∈ f.nodes, n.kind.rename literalName fluentName = n.kind) :
    f.renameAtoms literalName fluentName = f := by
  have same : f.nodes.map (fun n => { n with kind := n.kind.rename literalName fluentName }) =
      f.nodes.map id := by
    refine Array.map_congr_left fun n mem => ?_
    rw [h n mem]
    rfl
  rw [renameAtoms, same, Array.map_id]

/-! ## Bare formulas -/

/-- **Nothing stands below an atom or a number**, in no node of the formula. -/
def BareLeaves (f : Formula) : Prop :=
  ∀ n ∈ f.nodes, n.kind.keyword? = none → n.children = []

/-- A formula of bare leaves unfolds to bare terms. -/
theorem bare_of_unfoldWithin {f : Formula} (bare : f.BareLeaves) {depth id : Nat} {t : Term}
    (h : f.unfoldWithin depth id = some t) : t.Bare := by
  -- the term need not be shown whole for this: what is cut off is below a bare node
  induction depth generalizing id t with
  | zero => cases h
  | succ depth ih =>
    cases found : f.node? id with
    | none =>
      rw [unfoldWithin_of_none found] at h
      cases h
    | some n =>
      rw [unfoldWithin_of_node? found] at h
      cases h
      refine .node (fun leaf => ?_) fun c mem => ?_
      · rw [bare n (Array.mem_of_getElem? found) leaf, List.filterMap_nil]
      · obtain ⟨id, _, below⟩ := List.mem_filterMap.1 mem
        exact ih below

theorem bare_of_bareLeaves {f : Formula} (bare : f.BareLeaves) {t : Term}
    (h : f.term? = some t) : t.Bare :=
  bare_of_unfoldWithin bare h

/-! ## Unfolding to the end -/

/-- **The term shows the whole formula**: going deeper shows no more. -/
def Whole (f : Formula) : Prop :=
  f.unfoldWithin (f.size + 1) 0 = f.term?

/-- Where a formula is shown whole, its top stands over the terms of the children. -/
theorem term?_of_whole {f : Formula} (whole : f.Whole) {n : Node} (found : f.root? = some n) :
    f.term? = some (.node n.kind (n.children.filterMap f.unfold)) := by
  rw [← whole, unfoldWithin_of_node? found]
  rfl

theorem whole_ofTerm (t : Term) : (ofTerm t).Whole := by
  rw [Whole, term?_ofTerm, unfoldWithin_ofTerm]
  rw [size_ofTerm]
  exact Nat.le_succ _

theorem whole_renameAtoms {f : Formula} (whole : f.Whole)
    (literalName fluentName : String → String) : (f.renameAtoms literalName fluentName).Whole := by
  rw [Whole, size_renameAtoms, unfoldWithin_renameAtoms, whole, term?_renameAtoms]

/-! ## Cycles -/

/-- The node `a` has `b` among its children. -/
def Child (f : Formula) (a b : Nat) : Prop :=
  ∃ n, f.node? a = some n ∧ b ∈ n.children

/-- **No cycles**: no node that the root reaches stands below itself. Nothing that looks
at a formula from the top downwards would come to an end on one that has a cycle. -/
def Acyclic (f : Formula) : Prop :=
  ∀ id, Relation.ReflTransGen f.Child 0 id → ¬ Relation.TransGen f.Child id id

/-- What one level more changes lies at the end of a path of as many nodes as there are
levels. -/
theorem exists_path_of_deeper {f : Formula} {depth id : Nat}
    (deeper : f.unfoldWithin (depth + 1) id ≠ f.unfoldWithin depth id) :
    ∃ below, below.length = depth ∧ (id :: below).IsChain f.Child ∧
      ∀ a ∈ id :: below, a < f.size := by
  induction depth generalizing id with
  | zero =>
    cases found : f.node? id with
    | none => exact absurd (unfoldWithin_of_none found _) deeper
    | some n =>
      obtain ⟨inside, _⟩ := Array.getElem?_eq_some_iff.1 found
      exact ⟨[], rfl, List.isChain_singleton id, List.forall_mem_singleton.2 inside⟩
  | succ depth ih =>
    cases found : f.node? id with
    | none =>
      rw [unfoldWithin_of_none found, unfoldWithin_of_none found] at deeper
      exact absurd rfl deeper
    | some n =>
      -- some child of the node is changed
      have ⟨c, mem, changed⟩ : ∃ c ∈ n.children,
          f.unfoldWithin (depth + 1) c ≠ f.unfoldWithin depth c := by
        by_contra unchanged
        simp only [not_exists, not_and, not_not] at unchanged
        rw [unfoldWithin_of_node? found, unfoldWithin_of_node? found,
          List.filterMap_congr unchanged] at deeper
        exact deeper rfl
      obtain ⟨below, length, chain, inside⟩ := ih changed
      obtain ⟨bound, _⟩ := Array.getElem?_eq_some_iff.1 found
      refine ⟨c :: below, by rw [List.length_cons, length], ?_, ?_⟩
      · exact List.isChain_cons_cons.2 ⟨⟨n, found, mem⟩, chain⟩
      · exact List.forall_mem_cons.2 ⟨bound, inside⟩

/-- A number unfolds to a term when a node has it. -/
theorem exists_unfold_iff {f : Formula} {id : Nat} : (∃ t, f.unfold id = some t) ↔ id < f.size := by
  constructor
  · rintro ⟨t, shown⟩
    by_contra outside
    have missing : f.node? id = none := Array.getElem?_eq_none_iff.2 (Nat.le_of_not_lt outside)
    rw [unfold, unfoldWithin_of_none missing] at shown
    cases shown
  · intro inside
    have found : f.node? id = some f.nodes[id] := Array.getElem?_eq_getElem inside
    obtain ⟨depth, size⟩ := size_pos_of_node? found
    rw [unfold, size, unfoldWithin_of_node? found]
    exact ⟨_, rfl⟩

section Reached

open Relation (ReflTransGen TransGen)

variable {f : Formula} {root : Nat}
  (acyclic : ∀ id, ReflTransGen f.Child root id → ¬ TransGen f.Child id id)
include acyclic

/-- **Without cycles** nothing more is shown below a reached node from as many levels on as
there are nodes: a path of more nodes than there are would meet one of them twice. -/
theorem unfoldWithin_succ_of_reached {id : Nat} (reached : ReflTransGen f.Child root id)
    {depth : Nat} (enough : f.size ≤ depth) :
    f.unfoldWithin (depth + 1) id = f.unfoldWithin depth id := by
  by_contra deeper
  obtain ⟨below, length, chain, inside⟩ := exists_path_of_deeper deeper
  -- the path has one node more than there are levels, and all of its nodes are different
  have ordered : (id :: below).Pairwise (TransGen f.Child) :=
    List.isChain_iff_pairwise.1 (chain.imp fun _ _ => TransGen.single)
  have further : ∀ a ∈ id :: below, ReflTransGen f.Child root a := by
    refine List.forall_mem_cons.2 ⟨reached, fun a mem => ?_⟩
    exact reached.trans (List.rel_of_pairwise_cons ordered mem).to_reflTransGen
  have distinct : (id :: below).Nodup := by
    refine ordered.imp_of_mem ?_
    rintro a b mem _ path rfl
    exact acyclic a (further a mem) path
  have few := distinct.length_le_of_subset
    fun a mem => List.mem_range.2 (inside a mem)
  rw [List.length_cons, length, List.length_range] at few
  omega

/-- So any greater depth shows what the node unfolds to. -/
theorem unfoldWithin_of_reached {id : Nat} (reached : ReflTransGen f.Child root id) {depth : Nat}
    (enough : f.size ≤ depth) : f.unfoldWithin depth id = f.unfold id := by
  induction depth, enough using Nat.le_induction with
  | base => rfl
  | succ depth enough ih => rw [unfoldWithin_succ_of_reached acyclic reached enough, ih]

/-- A reached node stands over what its children unfold to. -/
theorem unfold_of_reached {id : Nat} (reached : ReflTransGen f.Child root id) {n : Node}
    (found : f.node? id = some n) :
    f.unfold id = some (.node n.kind (n.children.filterMap f.unfold)) := by
  rw [← unfoldWithin_of_reached acyclic reached (Nat.le_succ _), unfoldWithin_of_node? found]
  rfl

/-- **What holds of a term by recursion** over the children that are looked at holds of the
nodes that are met on the way down through them. -/
theorem forall_below_iff {edge : Nat → Nat → Prop} (edges : ∀ a b, edge a b → f.Child a b)
    {P : Term → Prop} {Q : Node → Prop}
    (step : ∀ id n, f.node? id = some n → (P (.node n.kind (n.children.filterMap f.unfold)) ↔
      Q n ∧ ∀ c, edge id c → ∀ t, f.unfold c = some t → P t))
    {id : Nat} (reached : ReflTransGen f.Child root id) {t : Term} (shown : f.unfold id = some t) :
    P t ↔ ∀ a n, ReflTransGen edge id a → f.node? a = some n → Q n := by
  induction t generalizing id with
  | node k cs ih =>
    obtain ⟨m, found⟩ : ∃ m, f.node? id = some m :=
      ⟨_, Array.getElem?_eq_getElem (exists_unfold_iff.1 ⟨_, shown⟩)⟩
    have same := Option.some.inj (shown.symm.trans (unfold_of_reached acyclic reached found))
    have below : ∀ c, edge id c → ∀ u, f.unfold c = some u →
        (P u ↔ ∀ a n, ReflTransGen edge c a → f.node? a = some n → Q n) := by
      intro c first u under
      obtain ⟨m', found', child⟩ := edges id c first
      obtain rfl := Option.some.inj (found.symm.trans found')
      refine ih u ?_ (reached.tail (edges id c first)) under
      rw [(Term.node.inj same).2]
      exact List.mem_filterMap.2 ⟨c, child, under⟩
    rw [same, step id m found]
    constructor
    · rintro ⟨here, further⟩ a n path at'
      rcases ReflTransGen.cases_head path with rfl | ⟨c, first, rest⟩
      · rwa [← Option.some.inj (found.symm.trans at')]
      · -- the path ends at a node, so that its second number is one of a node as well
        obtain ⟨u, under⟩ : ∃ u, f.unfold c = some u := by
          refine exists_unfold_iff.2 ?_
          rcases ReflTransGen.cases_head rest with rfl | ⟨d, next, _⟩
          · exact (Array.getElem?_eq_some_iff.1 at').1
          · obtain ⟨_, there, _⟩ := edges c d next
            exact (Array.getElem?_eq_some_iff.1 there).1
        exact (below c first u under).1 (further c first u under) a n rest at'
    · intro all
      refine ⟨all id m .refl found, fun c first u under => ?_⟩
      exact (below c first u under).2 fun a n path at' => all a n (path.head first) at'

end Reached

section Acyclic

variable {f : Formula}

/-- Without cycles the unfolding has come to an end. -/
theorem whole_of_acyclic (acyclic : f.Acyclic) : f.Whole :=
  unfoldWithin_succ_of_reached acyclic .refl (Nat.le_refl _)

/-- So the term of a formula without cycles is what any greater depth shows. -/
theorem unfoldWithin_of_acyclic (acyclic : f.Acyclic) {depth : Nat} (enough : f.size ≤ depth) :
    f.unfoldWithin depth 0 = f.term? :=
  unfoldWithin_of_reached acyclic .refl enough

/-- From an empty formula nothing is reached. -/
theorem node?_of_term?_eq_none (none_ : f.term? = none) (id : Nat) : f.node? id = none := by
  have empty : f.nodes.size = 0 := by
    have := term?_eq_none_iff.1 none_
    rwa [isEmpty, Array.isEmpty_iff_size_eq_zero] at this
  exact Array.getElem?_eq_none_iff.2 (by omega)

/-- What the children of a node unfold to stands under the node. -/
theorem forall_mem_filterMap_unfold {id : Nat} {n : Node} (found : f.node? id = some n)
    {P : Term → Prop} : (∀ t ∈ n.children.filterMap f.unfold, P t) ↔
      ∀ c, f.Child id c → ∀ t, f.unfold c = some t → P t := by
  have child : ∀ c, f.Child id c ↔ c ∈ n.children := by
    intro c
    rw [Child, found]
    simp
  simp only [child, List.mem_filterMap]
  constructor
  · exact fun all c mem t shown => all t ⟨c, mem, shown⟩
  · rintro all t ⟨c, mem, shown⟩
    exact all c mem t shown

/-- **The kinds of a formula** are those of the nodes that its root reaches. -/
theorem forall_kinds_iff (acyclic : f.Acyclic) {R : NodeKind → Prop} :
    (∀ t, f.term? = some t → ∀ k ∈ t.kinds, R k) ↔
      ∀ id n, Relation.ReflTransGen f.Child 0 id → f.node? id = some n → R n.kind := by
  cases shown : f.term? with
  | none => simp [node?_of_term?_eq_none shown]
  | some t =>
    have nodes : (∀ k ∈ t.kinds, R k) ↔
        ∀ id n, Relation.ReflTransGen f.Child 0 id → f.node? id = some n → R n.kind := by
      refine forall_below_iff acyclic (P := fun t => ∀ k ∈ t.kinds, R k) (Q := fun n => R n.kind)
        (fun _ _ edge => edge) (fun id n found => ?_) .refl shown
      rw [Term.forall_kinds_node]
      exact and_congr_right fun _ => forall_mem_filterMap_unfold found
    rw [← nodes]
    simp

end Acyclic

/-- **Comparison with the formula of a term** compares the terms. -/
theorem equiv_ofTerm_iff {f : Formula} (acyclic : f.Acyclic) {u : Term} :
    f.equiv (ofTerm u) = true ↔ ∃ t, f.term? = some t ∧ t.same u = true := by
  have here : f.unfoldWithin (f.size + (ofTerm u).size + 1) 0 = f.term? :=
    unfoldWithin_of_acyclic acyclic (by omega)
  have there : (ofTerm u).unfoldWithin (f.size + (ofTerm u).size + 1) 0 = some u :=
    unfoldWithin_ofTerm (by rw [size_ofTerm]; omega)
  rw [equiv, isEmpty_ofTerm, Bool.and_false, Bool.false_or, equivAt]
  simp only [here, there]
  cases f.term? <;> simp

theorem acyclic_empty : empty.Acyclic := by
  rintro id - cycle
  obtain ⟨_, ⟨n, found, _⟩, _⟩ := Relation.TransGen.head'_iff.1 cycle
  cases found

theorem acyclic_renameAtoms {f : Formula} (acyclic : f.Acyclic)
    (literalName fluentName : String → String) :
    (f.renameAtoms literalName fluentName).Acyclic := by
  have same : (f.renameAtoms literalName fluentName).Child = f.Child := by
    funext a b
    rw [Child, Child, node?_renameAtoms]
    cases f.node? a <;> simp
  intro id
  rw [same]
  exact acyclic id

/-! ## Numbered terms -/

mutual

theorem map_kind_nodesFrom (start : Nat) :
    (t : Term) → (t.nodesFrom start).map Node.kind = t.kinds
  | .node k cs => by
    rw [nodesFrom, List.map_cons, map_kind_nodesFromAll (start + 1) cs, Term.kinds]

theorem map_kind_nodesFromAll (start : Nat) :
    (ts : List Term) → (nodesFromAll start ts).map Node.kind = Term.kindsAll ts
  | [] => rfl
  | t :: ts => by
    rw [nodesFromAll, List.map_append, map_kind_nodesFrom start t,
      map_kind_nodesFromAll (start + t.size) ts, Term.kindsAll]

end

mutual

theorem map_id_nodesFrom (start : Nat) :
    (t : Term) → (t.nodesFrom start).map Node.id = List.range' start t.size
  | .node k cs => by
    rw [nodesFrom, List.map_cons, map_id_nodesFromAll (start + 1) cs, Term.size, List.range'_succ]

/-- The nodes of several terms carry the numbers from the first one on. -/
theorem map_id_nodesFromAll (start : Nat) :
    (ts : List Term) → (nodesFromAll start ts).map Node.id = List.range' start (sizeAll ts)
  | [] => rfl
  | t :: ts => by
    rw [nodesFromAll, List.map_append, map_id_nodesFrom start t,
      map_id_nodesFromAll (start + t.size) ts, sizeAll, List.range'_append_1]

end

/-- The tops of several terms are numbered from the first one on. -/
theorem le_of_mem_tops {start id : Nat} {ts : List Term} (mem : id ∈ tops start ts) :
    start ≤ id := by
  induction ts generalizing start with
  | nil => cases mem
  | cons t ts ih =>
    rcases List.mem_cons.1 mem with rfl | mem
    · exact Nat.le_refl id
    · exact Nat.le_of_add_right_le (ih mem)

/-- What holds of the nodes of each of several terms holds of all their nodes. -/
theorem forall_nodesFromAll {P : Node → Prop} {ts : List Term}
    (each : ∀ t ∈ ts, ∀ start, ∀ n ∈ t.nodesFrom start, P n) (start : Nat) :
    ∀ n ∈ nodesFromAll start ts, P n := by
  induction ts generalizing start with
  | nil => exact fun _ mem => absurd mem List.not_mem_nil
  | cons t ts ih =>
    rw [nodesFromAll]
    refine List.forall_mem_append.2 ⟨each t List.mem_cons_self start, ?_⟩
    exact ih (fun u mem => each u (List.mem_cons_of_mem t mem)) _

/-- The children of a numbered node come after it. -/
theorem lt_of_mem_children {t : Term} : ∀ start, ∀ n ∈ t.nodesFrom start,
    ∀ c ∈ n.children, n.id < c := by
  induction t with
  | node k cs ih =>
    intro start
    rw [nodesFrom]
    exact List.forall_mem_cons.2 ⟨fun c mem => le_of_mem_tops mem, forall_nodesFromAll ih _⟩

/-- The formula of a bare term has bare leaves. -/
theorem bareLeaves_ofTerm {t : Term} (bare : t.Bare) : (ofTerm t).BareLeaves := by
  -- children are numbered later than their parents, so the first number has to vary
  suffices all : ∀ start, ∀ n ∈ t.nodesFrom start, n.kind.keyword? = none → n.children = [] from
    fun n mem => all 0 n (by simpa [ofTerm] using mem)
  induction bare with
  | node leaf _ ih =>
    intro start
    rw [nodesFrom]
    refine List.forall_mem_cons.2 ⟨fun kind => ?_, forall_nodesFromAll ih _⟩
    rw [leaf kind, tops]

/-- The formula of a term has no cycles: children come after their parents. -/
theorem acyclic_ofTerm (t : Term) : (ofTerm t).Acyclic := by
  have later : ∀ a b, (ofTerm t).Child a b → a < b := by
    rintro a b ⟨n, found, mem⟩
    have stands : (t.nodesFrom 0)[a]? = some n := by simpa [ofTerm, node?] using found
    -- the node at a position carries the position as its number
    have number : ((t.nodesFrom 0).map Node.id)[a]? = some n.id := by
      rw [List.getElem?_map, stands, Option.map_some]
    rw [map_id_nodesFrom, List.getElem?_range'] at number
    · have id : a = n.id := by simpa using number
      rw [id]
      exact lt_of_mem_children 0 n (List.mem_of_getElem? stands) b mem
    · rw [← length_nodesFrom]
      exact (List.getElem?_eq_some_iff.1 stands).1
  intro id _ cycle
  have less : ∀ a b, Relation.TransGen (ofTerm t).Child a b → a < b := by
    intro a b path
    induction path with
    | single step => exact later _ _ step
    | tail _ step ih => exact Nat.lt_trans ih (later _ _ step)
  exact Nat.lt_irrefl id (less id id cycle)

/-- Renaming that leaves every kind of a term alone leaves its formula alone. -/
theorem renameAtoms_ofTerm_eq_self {t : Term} {literalName fluentName : String → String}
    (h : ∀ k ∈ t.kinds, k.rename literalName fluentName = k) :
    (ofTerm t).renameAtoms literalName fluentName = ofTerm t := by
  refine renameAtoms_eq_self fun n mem => h n.kind ?_
  rw [← map_kind_nodesFrom 0 t]
  exact List.mem_map_of_mem (by simpa [ofTerm] using mem)

end WorldModel.Formula
