/-
Grafting node by node.

A graft is defined as the copy of a term, which is there at once. It can as well be made one node
at a time, and then the numbering is not planned ahead: a node is pushed, below its parent if it
has one, and what stands below its children in the source is grafted below it, child by child. Each
of these grafts finds a formula that has grown by the ones before, and takes the numbers that come
next. **Main statement.** `Forest.graft_eq`: out of a forest both make the same formula, with the
same numbers, and are refused together.

The work is in `graftAll_eq`: copies that are grafted below one node, one after the other, come to
stand in a row, and their tops are listed in this order. Compositions and parts taken out are made
of grafts as well (`compose_eq_graft`, `extract_eq_graft`).
-/
import WorldModel.Proofs.Formula.Below

set_option autoImplicit false

namespace WorldModel.Formula

open Term (nodesFrom nodesFromAll tops length_nodesFrom)

/-! ## Below one node -/

/-- A node with more children behind those that it has. -/
def extended (cs : List Nat) (n : Node) : Node :=
  { n with children := n.children ++ cs }

theorem extended_nil : extended [] = id := by
  funext n
  rw [extended, List.append_nil, id]

theorem extended_extended (cs ds : List Nat) (n : Node) :
    extended ds (extended cs n) = extended (cs ++ ds) n := by
  rw [extended, extended, extended, List.append_assoc]

theorem modify_append_of_lt {α : Type} {xs ys : List α} {i : Nat} (within : i < xs.length)
    (h : α → α) : (xs ++ ys).modify i h = xs.modify i h ++ ys := by
  induction xs generalizing i with
  | nil => cases within
  | cons x xs ih =>
    cases i with
    | zero => rfl
    | succ i =>
      rw [List.cons_append, List.modify_succ_cons, List.modify_succ_cons,
        ih (Nat.lt_of_succ_lt_succ within), List.cons_append]

theorem modify_length_append {α : Type} (xs ys : List α) (x : α) (h : α → α) :
    (xs ++ x :: ys).modify xs.length h = xs ++ h x :: ys := by
  induction xs with
  | nil => rfl
  | cons y xs ih => rw [List.cons_append, List.length_cons, List.modify_succ_cons, ih, List.cons_append]

section Graft

variable {f : Formula} {parent : Nat}

/-- A copy below a node that is there. -/
theorem graftTerm_of_lt (within : parent < f.size) (t : Term) : f.graftTerm (some parent) t =
    some (⟨f.nodes.modify parent (extended [f.size]) ++ (t.nodesFrom f.size).toArray⟩, f.size) := by
  have larger := size_append f t
  have attached : (f.append t).attach parent f.size =
      some ⟨(f.append t).nodes.modify parent (extended [f.size])⟩ := if_pos (by omega)
  have copied : f.graftTerm (some parent) t =
      ((f.append t).attach parent f.size).map (·, f.size) := if_pos within
  have length : parent < f.nodes.toList.length := within
  rw [copied, attached, Option.map_some, append]
  congr 3
  rw [← Array.toList_inj, Array.toList_modify, Array.toList_append, Array.toList_append,
    Array.toList_modify, modify_append_of_lt length]

/-- Copies of several terms below one node, one after the other. -/
def graftAll (f : Formula) (parent : Nat) (ts : List Term) : Option Formula :=
  ts.foldlM (fun g t => (g.graftTerm (some parent) t).map Prod.fst) f

/-- **Copies in a row**: their nodes follow one another, and the node that they are below lists
their tops. -/
theorem graftAll_eq (within : parent < f.size) (ts : List Term) : f.graftAll parent ts = some
    ⟨f.nodes.modify parent (extended (tops f.size ts)) ++ (nodesFromAll f.size ts).toArray⟩ := by
  induction ts generalizing f with
  | nil =>
    have same : f.nodes.modify parent (extended []) = f.nodes := by
      rw [extended_nil, ← Array.toList_inj, Array.toList_modify, List.modify_id]
    rw [tops, nodesFromAll, same, Array.append_empty]
    rfl
  | cons t ts ih =>
    let g : Formula := ⟨f.nodes.modify parent (extended [f.size]) ++ (t.nodesFrom f.size).toArray⟩
    have size : g.size = f.size + t.size := by
      simp only [g, Formula.size, Array.size_append, Array.size_modify, List.size_toArray,
        length_nodesFrom]
    have first : f.graftAll parent (t :: ts) = g.graftAll parent ts := by
      rw [graftAll, List.foldlM_cons, graftTerm_of_lt within]
      rfl
    have length : parent < (f.nodes.toList.modify parent (extended [f.size])).length := by
      rw [List.length_modify]
      exact within
    rw [first, ih (f := g) (by omega), size, tops, nodesFromAll]
    congr 2
    simp only [g, ← Array.toList_inj, Array.toList_append, Array.toList_modify]
    rw [modify_append_of_lt length, List.modify_modify_eq, List.append_assoc]
    congr 2
    funext n
    exact extended_extended [f.size] (tops (f.size + t.size) ts) n

end Graft

/-! ## One node at a time -/

/-- A new node, the last child of its parent if one is given. -/
def add (f : Formula) (parent : Option Nat) (kind : NodeKind) : Option (Formula × Nat) :=
  match parent with
  | none => some (f.push kind)
  | some p => f.pushChild p kind

section Add

variable (f : Formula) (k : NodeKind) (ts : List Term)

theorem nodesFrom_leaf (start : Nat) : nodesFrom start (.node k []) = [⟨start, k, []⟩] := by
  rw [nodesFrom, tops, nodesFromAll]

theorem add_none : f.add none k = some (⟨f.nodes ++ [⟨f.size, k, []⟩].toArray⟩, f.size) := by
  rw [add, push, Array.push_eq_append]

theorem add_some (p : Nat) :
    f.add (some p) k = ((f.append (.node k [])).attach p f.size).map (·, f.size) := by
  rw [add, pushChild, push_eq]

/-- A new node below one that is there. -/
theorem add_of_lt {p : Nat} (within : p < f.size) : f.add (some p) k =
    some (⟨f.nodes.modify p (extended [f.size]) ++ [⟨f.size, k, []⟩].toArray⟩, f.size) := by
  have same : f.graftTerm (some p) (.node k []) = f.add (some p) k := by
    rw [add_some]
    exact if_pos within
  rw [← same, graftTerm_of_lt within, nodesFrom_leaf]

/-- Below its own number a new node lists itself. -/
theorem add_size : f.add (some f.size) k =
    some (⟨f.nodes ++ [⟨f.size, k, [f.size]⟩].toArray⟩, f.size) := by
  have larger : f.size < (f.append (.node k [])).size := by
    rw [size_append]
    exact Nat.lt_succ_self _
  have attached : (f.append (.node k [])).attach f.size f.size =
      some ⟨(f.append (.node k [])).nodes.modify f.size (extended [f.size])⟩ := if_pos larger
  rw [add_some, attached, append, nodesFrom_leaf, Option.map_some]
  congr 3
  rw [← Array.toList_inj, Array.toList_modify, Array.toList_append, Array.toList_append]
  exact modify_length_append f.nodes.toList [] _ _

/-- Copies below the last node. -/
theorem graftAll_last {ns : Array Node} {last : Nat} (length : ns.size = last) (n : Node) :
    (some ((⟨ns ++ [n].toArray⟩ : Formula), last)).bind
        (fun r => (r.1.graftAll r.2 ts).map (·, r.2)) =
      some (⟨ns ++ (extended (tops (last + 1) ts) n :: nodesFromAll (last + 1) ts).toArray⟩,
        last) := by
  subst length
  have size : Formula.size ⟨ns ++ [n].toArray⟩ = ns.size + 1 := by
    simp [Formula.size]
  rw [Option.bind_some, graftAll_eq (by dsimp only; omega), size, Option.map_some]
  congr 3
  simp only [← Array.toList_inj, Array.toList_append, Array.toList_modify]
  rw [← Array.length_toList, modify_length_append, List.append_assoc]
  rfl

/-- **A copy of a term** is a new node with the kind of its top, and below it copies of what stands
below the top. -/
theorem graftTerm_eq (parent : Option Nat) : f.graftTerm parent (.node k ts) =
    (f.add parent k).bind fun r => (r.1.graftAll r.2 ts).map (·, r.2) := by
  have whole : f.append (.node k ts) =
      ⟨f.nodes ++ (⟨f.size, k, tops (f.size + 1) ts⟩ :: nodesFromAll (f.size + 1) ts).toArray⟩ := by
    rw [append, nodesFrom]
  cases parent with
  | none =>
    rw [add_none, graftAll_last ts (show f.nodes.size = f.size from rfl)]
    exact congrArg (fun g => some (g, f.size)) whole
  | some p =>
    rcases Nat.lt_trichotomy p f.size with within | rfl | beyond
    · have length : (f.nodes.modify p (extended [f.size])).size = f.size := Array.size_modify
      rw [add_of_lt f k within, graftAll_last ts length, graftTerm_of_lt within, nodesFrom]
      rfl
    · -- the top is its own first child
      have copied : f.graftTerm (some f.size) (.node k ts) =
          some ((f.append (.node k ts)).attachFirst f.size f.size, f.size) := by
        rw [graftTerm]
        simp only [Nat.lt_irrefl, if_false, if_true]
        rfl
      rw [add_size, graftAll_last ts (show f.nodes.size = f.size from rfl), copied, whole, attachFirst]
      congr 3
      simp only [← Array.toList_inj, Array.toList_append, Array.toList_modify]
      exact modify_length_append f.nodes.toList _ _ _
    · have refused : f.add (some p) k = none := pushChild_eq_none_iff.2 beyond
      rw [refused, Option.bind_none, graftTerm]
      simp only [Nat.lt_asymm beyond, Nat.ne_of_gt beyond, if_false]

end Add

/-! ## Grafting out of a formula -/

/-- Grafts of what stands below several nodes, one after the other. -/
def graftChildren (f : Formula) (parent : Nat) (source : Formula) (cs : List Nat) : Option Formula :=
  cs.foldlM (fun g c => (graft g (some parent) source c).map Prod.fst) f

theorem graftChildren_eq {source : Formula} {cs : List Nat} (inside : ∀ c ∈ cs, c < source.size)
    (f : Formula) (parent : Nat) :
    f.graftChildren parent source cs = f.graftAll parent (cs.filterMap source.unfold) := by
  induction cs generalizing f with
  | nil => rfl
  | cons c cs ih =>
    obtain ⟨first, later⟩ := List.forall_mem_cons.1 inside
    obtain ⟨t, under⟩ := exists_unfold_iff.2 first
    rw [graftChildren, List.foldlM_cons, List.filterMap_cons_some under, graft, under,
      Option.bind_some, graftAll, List.foldlM_cons]
    exact congrArg _ (funext fun g => ih later g)

/-- **Grafting node by node.** Out of a forest, a graft is a new node with the kind of its root, and
below it, one after the other, grafts of what stands below the children. -/
theorem Forest.graft_eq {source : Formula} (forest : source.Forest) {root : Nat} {n : Node}
    (found : source.node? root = some n) (f : Formula) (parent : Option Nat) :
    f.graft parent source root = (f.add parent n.kind).bind fun r =>
      (r.1.graftChildren r.2 source n.children).map (·, r.2) := by
  simp only [graftChildren_eq (forest.children_inside found)]
  rw [graft, forest.unfold_eq found, Option.bind_some, graftTerm_eq]

/-- A composition is a top, and below it grafts of the parts that are not empty. -/
theorem compose_eq_graft (kind : NodeKind) (parts : List Formula) :
    (parts.filter fun p => !p.isEmpty).foldlM
      (fun g p => (graft g (some 0) p 0).map Prod.fst) (empty.push kind).1 =
        some (compose kind parts) := by
  have copies : ∀ g : Formula, (parts.filter fun p => !p.isEmpty).foldlM
      (fun g p => (graft g (some 0) p 0).map Prod.fst) g =
        g.graftAll 0 (parts.filterMap term?) := by
    intro g
    induction parts generalizing g with
    | nil => rfl
    | cons p ps ih =>
      cases shown : p.term? with
      | none =>
        have none_ : p.isEmpty = true := term?_eq_none_iff.1 shown
        rw [List.filterMap_cons_none shown, List.filter_cons_of_neg (by simp [none_]), ih]
      | some t =>
        have some_ : p.isEmpty = false := isEmpty_eq_false_iff.2 ⟨t, shown⟩
        have copied : graft g (some 0) p 0 = g.graftTerm (some 0) t := by
          rw [graft, ← term?, shown, Option.bind_some]
        rw [List.filterMap_cons_some shown, List.filter_cons_of_pos (by simp [some_]),
          List.foldlM_cons, copied, graftAll, List.foldlM_cons]
        exact congrArg _ (funext ih)
  rw [copies]
  have whole := graftTerm_eq empty kind (parts.filterMap term?) none
  rw [add, Option.bind_some] at whole
  obtain ⟨g, made, same⟩ := Option.map_eq_some_iff.1 whole.symm
  have top : (empty.push kind).2 = 0 := rfl
  rw [top] at made
  rw [made, (Prod.mk.inj same).1, compose, ← append_empty]
  rfl

/-- What is taken out is a graft into the empty formula. -/
theorem extract_eq_graft {f : Formula} {id : Nat} (within : id < f.size) :
    empty.graft none f id = some (f.extract id, 0) := by
  obtain ⟨t, shown⟩ := exists_unfold_iff.2 within
  rw [graft, extract, shown, Option.bind_some, ofTerm?, ← append_empty]
  rfl

end WorldModel.Formula
