/-
Formulas whose nodes form a forest.

Everything that goes through a formula from a node downwards has no guard against walking
in circles. It comes to an end because of how formulas are built: every node carries its
position, children are nodes, no node is a child twice, the root is nobody's child, and
going down never leads back (`Forest`).

**The idea.** A new node comes behind all others and has no children yet, and a copied term
is numbered in pre-order. So an edge that an operation adds leads to a new node and upwards
in number, and no cycle can use it (`Forest.extend`). To push a node is to append a copy of
a term of one node, so that one lemma is enough for pushing and grafting, with and without a
parent. It has one condition, that the parent was there before (`forest_pushChild`,
`forest_graft`): under the number that it is about to get a node becomes its own child
(`not_forest_pushChild_size`).
-/
import Mathlib.Data.List.Flatten
import Mathlib.Data.List.Nodup
import WorldModel.Proofs.Formula.Unfold

set_option autoImplicit false

namespace WorldModel.Formula

open Term (nodesFrom nodesFromAll tops sizeAll length_nodesFrom)
open Relation (ReflTransGen TransGen)

/-! ## Forests -/

/-- The children of all nodes, one node after the other. -/
def childList (f : Formula) : List Nat :=
  f.nodes.toList.flatMap Node.children

/-- **The nodes form a forest** in which the root is the top of a tree. -/
structure Forest (f : Formula) : Prop where
  numbered : ∀ i n, f.node? i = some n → n.id = i
  inside : ∀ c ∈ f.childList, c < f.size
  distinct : f.childList.Nodup
  top : 0 ∉ f.childList
  acyclic : ∀ id, ¬ TransGen f.Child id id

theorem mem_childList {f : Formula} {c : Nat} : c ∈ f.childList ↔ ∃ a, f.Child a c := by
  unfold childList Child node?
  rw [List.mem_flatMap]
  constructor
  · rintro ⟨n, mem, child⟩
    obtain ⟨a, found⟩ := Array.mem_iff_getElem?.1 (Array.mem_toList_iff.1 mem)
    exact ⟨a, n, found, child⟩
  · rintro ⟨a, n, found, child⟩
    exact ⟨n, Array.mem_toList_iff.2 (Array.mem_of_getElem? found), child⟩

theorem lt_size_of_child {f : Formula} {a b : Nat} (edge : f.Child a b) : a < f.size := by
  obtain ⟨n, found, _⟩ := edge
  exact (Array.getElem?_eq_some_iff.1 found).1

theorem not_forest_of_child_self {f : Formula} {a : Nat} (edge : f.Child a a) : ¬ f.Forest := by
  intro forest
  exact forest.acyclic a (.single edge)

theorem Forest.acyclicBelowRoot {f : Formula} (forest : f.Forest) : f.Acyclic :=
  fun id _ => forest.acyclic id

/-- The children of a node are nodes. -/
theorem Forest.children_inside {f : Formula} (forest : f.Forest) {id : Nat} {n : Node}
    (found : f.node? id = some n) : ∀ c ∈ n.children, c < f.size :=
  fun c mem => forest.inside c (mem_childList.2 ⟨id, n, found, mem⟩)

theorem forest_empty : Forest .empty := by
  have none : ∀ a b, ¬ Child .empty a b := by
    rintro a b ⟨n, found, _⟩
    simp [node?, empty] at found
  refine ⟨?_, ?_, .nil, List.not_mem_nil, ?_⟩
  · intro i n found
    simp [node?, empty] at found
  · intro c mem
    cases mem
  · intro id cycle
    obtain ⟨b, step, _⟩ := TransGen.head'_iff.1 cycle
    exact none id b step

/-! ## Adding edges to new nodes -/

section Extend

variable {f g : Formula}

/-- Where every edge is one of `f` or leads to a later node that `f` does not have, so does
every path. -/
theorem transGen_of_extended
    (edges : ∀ a b, g.Child a b → f.Child a b ∨ f.size ≤ b ∧ a < b) {a b : Nat}
    (path : TransGen g.Child a b) : TransGen f.Child a b ∨ f.size ≤ b ∧ a < b := by
  induction path with
  | single edge =>
    rcases edges _ _ edge with old | new
    · exact .inl (.single old)
    · exact .inr new
  | tail _ edge ih =>
    rcases ih with path | ⟨outside, later⟩ <;> rcases edges _ _ edge with old | new
    · exact .inl (path.tail old)
    · -- the path starts inside, and the last edge leaves
      obtain ⟨c, first, _⟩ := TransGen.head'_iff.1 path
      have within := lt_size_of_child first
      exact .inr (by omega)
    · -- no edge of `f` starts outside of it
      have within := lt_size_of_child old
      omega
    · exact .inr (by omega)

/-- **A forest grows**: the children that come in are new nodes, each of them once, and every
edge is an old one or leads to a later new node. -/
theorem Forest.extend (forest : f.Forest) {new : List Nat}
    (numbered : ∀ i n, g.node? i = some n → n.id = i)
    (children : g.childList.Perm (f.childList ++ new)) (larger : f.size ≤ g.size)
    (fresh : ∀ c ∈ new, f.size ≤ c ∧ c < g.size ∧ c ≠ 0) (once : new.Nodup)
    (edges : ∀ a b, g.Child a b → f.Child a b ∨ f.size ≤ b ∧ a < b) : g.Forest := by
  refine ⟨numbered, ?_, ?_, ?_, ?_⟩
  · intro c mem
    rcases List.mem_append.1 (children.mem_iff.1 mem) with old | mem
    · have := forest.inside c old
      omega
    · exact (fresh c mem).2.1
  · rw [children.nodup_iff, List.nodup_append]
    refine ⟨forest.distinct, once, ?_⟩
    intro c old d mem same
    have within := forest.inside c old
    have beyond := (fresh d mem).1
    omega
  · intro mem
    rcases List.mem_append.1 (children.mem_iff.1 mem) with old | mem
    · exact forest.top old
    · exact (fresh 0 mem).2.2 rfl
  · -- a cycle does not lead to a later node
    intro id cycle
    rcases transGen_of_extended edges cycle with old | new
    · exact forest.acyclic id old
    · omega

end Extend

/-! ## Numbered terms -/

mutual

/-- **The children of a numbered term**, and its top, are all its numbers once. -/
theorem perm_children_nodesFrom (start : Nat) : (t : Term) →
    (start :: (t.nodesFrom start).flatMap Node.children).Perm (List.range' start t.size)
  | .node k cs => by
    rw [nodesFrom, List.flatMap_cons, Term.size, List.range'_succ]
    exact (perm_children_nodesFromAll (start + 1) cs).cons start

theorem perm_children_nodesFromAll (start : Nat) : (ts : List Term) →
    (tops start ts ++ (nodesFromAll start ts).flatMap Node.children).Perm
      (List.range' start (sizeAll ts))
  | [] => .nil
  | t :: ts => by
    have first := perm_children_nodesFrom start t
    have later := perm_children_nodesFromAll (start + t.size) ts
    rw [tops, nodesFromAll, List.flatMap_append, sizeAll, ← List.range'_append_1]
    refine List.Perm.trans ?_ (first.append later)
    -- the children of the first term come before the tops of the others
    rw [List.cons_append, List.cons_append]
    refine List.Perm.cons start ?_
    rw [← List.append_assoc, ← List.append_assoc]
    exact List.perm_append_comm.append_right _

end

theorem nodup_children_nodesFrom (start : Nat) (t : Term) :
    (start :: (t.nodesFrom start).flatMap Node.children).Nodup :=
  (perm_children_nodesFrom start t).nodup_iff.2 List.nodup_range'

theorem mem_children_nodesFrom {start c : Nat} {t : Term}
    (mem : c ∈ start :: (t.nodesFrom start).flatMap Node.children) :
    start ≤ c ∧ c < start + t.size :=
  List.mem_range'_1.1 ((perm_children_nodesFrom start t).mem_iff.1 mem)

/-- The node at a place carries the number of that place. -/
theorem id_of_nodesFrom {start i : Nat} {t : Term} {n : Node}
    (found : (t.nodesFrom start)[i]? = some n) : n.id = start + i := by
  have within := (List.getElem?_eq_some_iff.1 found).1
  rw [length_nodesFrom] at within
  have number : ((t.nodesFrom start).map Node.id)[i]? = some n.id := by
    rw [List.getElem?_map, found, Option.map_some]
  rw [map_id_nodesFrom, List.getElem?_range' within] at number
  simpa [eq_comm] using number

/-! ## A copy behind the nodes -/

/-- The formula with a copy of a term behind its nodes. -/
def append (f : Formula) (t : Term) : Formula :=
  ⟨f.nodes ++ (t.nodesFrom f.size).toArray⟩

section Append

variable {f g : Formula} {t : Term}

theorem size_append (f : Formula) (t : Term) : (f.append t).size = f.size + t.size := by
  have copied := length_nodesFrom f.size t
  simp only [append, size, Array.size_append, List.size_toArray] at copied ⊢
  rw [copied]

theorem childList_append (f : Formula) (t : Term) : (f.append t).childList =
    f.childList ++ (t.nodesFrom f.size).flatMap Node.children := by
  rw [append, childList, Array.toList_append, List.flatMap_append, childList]

theorem node?_append (f : Formula) (t : Term) (i : Nat) : (f.append t).node? i =
    if i < f.size then f.node? i else (t.nodesFrom f.size)[i - f.size]? := by
  unfold append node? size
  rw [Array.getElem?_append]
  split
  · rfl
  · rw [List.getElem?_toArray]

theorem numbered_append (forest : f.Forest) (i : Nat) (n : Node)
    (found : (f.append t).node? i = some n) : n.id = i := by
  rw [node?_append] at found
  split at found
  · exact forest.numbered i n found
  · have number := id_of_nodesFrom found
    omega

/-- An edge of the copy leads upwards in number, and to a new node. -/
theorem child_append {a b : Nat} (edge : (f.append t).Child a b) :
    f.Child a b ∨ f.size ≤ b ∧ a < b := by
  obtain ⟨n, found, mem⟩ := edge
  rw [node?_append] at found
  split at found
  · exact .inl ⟨n, found, mem⟩
  · have number := id_of_nodesFrom found
    have later := lt_of_mem_children f.size n (List.mem_of_getElem? found) b mem
    exact .inr (by omega)

/-- **A copy behind a forest** that is nobody's child leaves a forest. -/
theorem Forest.append (forest : f.Forest) (t : Term) : (f.append t).Forest := by
  have distinct := nodup_children_nodesFrom f.size t
  have larger := size_append f t
  refine forest.extend (numbered_append forest) (.of_eq (childList_append f t)) (by omega) ?_
    distinct.of_cons fun a b => child_append
  intro c mem
  have range := mem_children_nodesFrom (List.mem_cons_of_mem _ mem)
  -- the copied top is no child, so that children come behind it
  have other : c ≠ f.size := by
    rintro rfl
    exact (List.nodup_cons.1 distinct).1 mem
  omega

theorem append_empty (t : Term) : Formula.empty.append t = ofTerm t := by
  unfold append ofTerm empty
  rw [Array.empty_append]
  rfl

theorem forest_ofTerm (t : Term) : (ofTerm t).Forest := by
  rw [← append_empty]
  exact forest_empty.append t

/-! ## Attaching -/

theorem attach_eq_some_iff {p c : Nat} : f.attach p c = some g ↔ p < f.size ∧
    g = ⟨f.nodes.modify p fun n => { n with children := n.children ++ [c] }⟩ := by
  unfold attach
  by_cases within : p < f.size
  · rw [if_pos within]
    simp [within, eq_comm]
  · rw [if_neg within]
    simp [within]

theorem perm_flatMap_modify {ns : List Node} {p c : Nat} (within : p < ns.length) :
    ((ns.modify p fun n => { n with children := n.children ++ [c] }).flatMap Node.children).Perm
      (c :: ns.flatMap Node.children) := by
  induction ns generalizing p with
  | nil => cases within
  | cons n ns ih =>
    cases p with
    | zero =>
      rw [List.modify_zero_cons, List.flatMap_cons, List.flatMap_cons, List.append_assoc]
      exact List.perm_middle
    | succ p =>
      have shorter : p < ns.length := by simpa using within
      rw [List.modify_succ_cons, List.flatMap_cons, List.flatMap_cons]
      exact ((ih shorter).append_left _).trans List.perm_middle

/-- What attaching changes: one node has one more child. -/
theorem node?_of_attach {p c : Nat} (attached : f.attach p c = some g) (i : Nat) :
    g.node? i = (f.node? i).map fun n =>
      if p = i then { n with children := n.children ++ [c] } else n := by
  obtain ⟨_, rfl⟩ := attach_eq_some_iff.1 attached
  unfold node?
  rw [Array.getElem?_modify]
  by_cases here : p = i
  · simp [here]
  · simp [here]

theorem size_of_attach {p c : Nat} (attached : f.attach p c = some g) : g.size = f.size := by
  obtain ⟨_, rfl⟩ := attach_eq_some_iff.1 attached
  unfold size
  rw [Array.size_modify]

theorem childList_of_attach {p c : Nat} (attached : f.attach p c = some g) :
    g.childList.Perm (c :: f.childList) := by
  obtain ⟨within, rfl⟩ := attach_eq_some_iff.1 attached
  unfold childList
  rw [Array.toList_modify]
  exact perm_flatMap_modify within

theorem child_of_attach {p c a b : Nat} (attached : f.attach p c = some g)
    (edge : g.Child a b) : f.Child a b ∨ a = p ∧ b = c := by
  obtain ⟨n, found, mem⟩ := edge
  rw [node?_of_attach attached] at found
  obtain ⟨m, old, rfl⟩ := Option.map_eq_some_iff.1 found
  by_cases here : p = a
  · rw [if_pos here] at mem
    rcases List.mem_append.1 mem with mem | mem
    · exact .inl ⟨m, old, mem⟩
    · exact .inr ⟨here.symm, List.mem_singleton.1 mem⟩
  · rw [if_neg here] at mem
    exact .inl ⟨m, old, mem⟩

/-- **A copy below an old node** leaves a forest. -/
theorem Forest.append_attach (forest : f.Forest) {p : Nat} (old : p < f.size)
    (attached : (f.append t).attach p f.size = some g) : g.Forest := by
  have larger := size_append f t
  have same := size_of_attach attached
  have added : g.childList.Perm
      (f.childList ++ f.size :: (t.nodesFrom f.size).flatMap Node.children) := by
    have children := childList_of_attach attached
    rw [childList_append] at children
    exact children.trans List.perm_middle.symm
  refine forest.extend ?_ added (by omega) ?_ (nodup_children_nodesFrom f.size t) ?_
  · intro i n found
    rw [node?_of_attach attached] at found
    obtain ⟨m, before, rfl⟩ := Option.map_eq_some_iff.1 found
    have number := numbered_append forest i m before
    split <;> exact number
  · intro c mem
    have range := mem_children_nodesFrom mem
    omega
  · intro a b edge
    rcases child_of_attach attached edge with edge | ⟨rfl, rfl⟩
    · exact child_append edge
    · exact .inr ⟨Nat.le_refl _, old⟩

end Append

/-! ## The operations that add nodes -/

section Grow

variable {f g : Formula} {id : Nat}

/-- A new node is a copy of a term with nothing below its top. -/
theorem push_eq (f : Formula) (kind : NodeKind) :
    f.push kind = (f.append (.node kind []), f.size) := by
  unfold push append
  rw [nodesFrom, tops, nodesFromAll, Array.push_eq_append]

theorem Forest.push (forest : f.Forest) (kind : NodeKind) : (f.push kind).1.Forest := by
  rw [push_eq]
  exact forest.append _

/-- **When a child can be pushed**: the parent is looked up among the nodes after the new
one has been added. -/
theorem pushChild_eq_none_iff {parent : Nat} {kind : NodeKind} :
    f.pushChild parent kind = none ↔ f.size < parent := by
  unfold pushChild attach
  have size : (f.append (.node kind [])).size = f.size + 1 := size_append f _
  rw [push_eq]
  simp only [size]
  by_cases within : parent < f.size + 1
  · simp [within]
    omega
  · simp [within]
    omega

/-- A pushed child is the last node, attached to its parent. -/
theorem attach_of_pushChild {parent : Nat} {kind : NodeKind}
    (pushed : f.pushChild parent kind = some (g, id)) :
    id = f.size ∧ (f.append (.node kind [])).attach parent f.size = some g := by
  unfold pushChild at pushed
  rw [push_eq] at pushed
  obtain ⟨_, attached, same⟩ := Option.map_eq_some_iff.1 pushed
  obtain ⟨rfl, rfl⟩ := Prod.mk.inj same
  exact ⟨rfl, attached⟩

theorem forest_pushChild (forest : f.Forest) {parent : Nat} {kind : NodeKind}
    (other : parent ≠ f.size) (pushed : f.pushChild parent kind = some (g, id)) : g.Forest := by
  obtain ⟨_, attached⟩ := attach_of_pushChild pushed
  have within := (attach_eq_some_iff.1 attached).1
  rw [size_append] at within
  -- the node that comes in is the only new one, and it is not the parent
  have old : parent < f.size := by
    have single : (Term.node kind []).size = 1 := rfl
    omega
  exact forest.append_attach old attached

/-- **The slip**: under its own number a new node becomes its own child. -/
theorem not_forest_pushChild_size {kind : NodeKind} (pushed : f.pushChild f.size kind = some (g, id)) :
    ¬ g.Forest := by
  obtain ⟨_, attached⟩ := attach_of_pushChild pushed
  apply not_forest_of_child_self (a := f.size)
  refine ⟨⟨f.size, kind, [f.size]⟩, ?_, List.mem_singleton_self _⟩
  rw [node?_of_attach attached, node?_append, if_neg (Nat.lt_irrefl _), Nat.sub_self]
  simp [nodesFrom, tops]

theorem forest_graft (forest : f.Forest) {parent : Option Nat} {source : Formula} {root : Nat}
    (other : parent ≠ some f.size) (grafted : f.graft parent source root = some (g, id)) :
    g.Forest := by
  unfold graft at grafted
  obtain ⟨t, _, copied⟩ := Option.bind_eq_some_iff.1 grafted
  unfold graftTerm at copied
  cases parent with
  | none =>
    obtain ⟨rfl, rfl⟩ := Prod.mk.inj (Option.some.inj copied)
    exact forest.append t
  | some p =>
    have differ : p ≠ f.size := fun same => other (congrArg some same)
    by_cases old : p < f.size
    · simp only [if_pos old] at copied
      obtain ⟨_, attached, same⟩ := Option.map_eq_some_iff.1 copied
      obtain ⟨rfl, rfl⟩ := Prod.mk.inj same
      exact forest.append_attach old attached
    · simp only [if_neg old, if_neg differ] at copied
      cases copied

end Grow

/-! ## The operations that make new formulas -/

theorem forest_ofTerm? (o : Option Term) : (ofTerm? o).Forest := by
  cases o with
  | none => exact forest_empty
  | some t => exact forest_ofTerm t

theorem forest_renameAtoms {f : Formula} (forest : f.Forest) (literalName fluentName : String → String) :
    (f.renameAtoms literalName fluentName).Forest := by
  have children : (f.renameAtoms literalName fluentName).childList = f.childList := by
    unfold childList renameAtoms
    rw [Array.toList_map, List.flatMap_map]
  have edges : ∀ a b, (f.renameAtoms literalName fluentName).Child a b → f.Child a b := by
    rintro a b ⟨n, found, mem⟩
    rw [node?_renameAtoms] at found
    obtain ⟨m, old, rfl⟩ := Option.map_eq_some_iff.1 found
    exact ⟨m, old, mem⟩
  refine ⟨?_, ?_, ?_, ?_, ?_⟩
  · intro i n found
    rw [node?_renameAtoms] at found
    obtain ⟨m, old, rfl⟩ := Option.map_eq_some_iff.1 found
    exact forest.numbered i m old
  · rw [children, size_renameAtoms]
    exact forest.inside
  · rw [children]
    exact forest.distinct
  · rw [children]
    exact forest.top
  · intro id cycle
    exact forest.acyclic id (TransGen.mono edges id id cycle)

end WorldModel.Formula
