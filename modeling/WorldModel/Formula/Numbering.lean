/-
Numbering a term and unfolding the formula are inverse to each other, one way round:
the term of `Formula.ofTerm t` is `t`. Composition, which numbers a new top over the
terms of its parts, therefore does on terms what its name says, and so does comparison.

**Main statements.** `term?_ofTerm`, `term?_compose` and `equiv_ofTerm`. All rest on
what unfolding finds in a formula that holds the nodes of a term from some position on
(`unfoldWithin_of_holdsAt`), whatever else the formula holds; a copy grafted behind
other nodes is such a case as well.
-/
import WorldModel.Formula.Query

set_option autoImplicit false

namespace WorldModel.Formula

open Term (nodesFrom nodesFromAll tops sizeAll length_nodesFrom)

/-! ## Nodes in place -/

/-- The nodes stand in the formula one behind the other from position `start` on. -/
def HoldsAt (f : Formula) (start : Nat) (ns : List Node) : Prop :=
  ∀ i, i < ns.length → f.node? (start + i) = ns[i]?

/-- The first of the nodes stands at the first position. -/
theorem HoldsAt.head {f : Formula} {start : Nat} {n : Node} {ns : List Node}
    (h : f.HoldsAt start (n :: ns)) : f.node? start = some n := by
  simpa using h 0 (by simp)

/-- The nodes behind the first one stand from the next position on. -/
theorem HoldsAt.tail {f : Formula} {start : Nat} {n : Node} {ns : List Node}
    (h : f.HoldsAt start (n :: ns)) : f.HoldsAt (start + 1) ns := by
  intro i hi
  have shifted := h (i + 1) (by simpa using hi)
  simpa [Nat.add_assoc, Nat.add_comm 1 i] using shifted

/-- Of two lists that stand in a row the first stands where both begin. -/
theorem HoldsAt.left {f : Formula} {start : Nat} {ns ms : List Node}
    (h : f.HoldsAt start (ns ++ ms)) : f.HoldsAt start ns := by
  intro i hi
  rw [h i (by rw [List.length_append]; omega), List.getElem?_append_left hi]

/-- Of two lists that stand in a row the second stands behind the first. -/
theorem HoldsAt.right {f : Formula} {start : Nat} {ns ms : List Node}
    (h : f.HoldsAt start (ns ++ ms)) : f.HoldsAt (start + ns.length) ms := by
  intro i hi
  rw [Nat.add_assoc, h (ns.length + i) (by rw [List.length_append]; omega),
    List.getElem?_append_right (by omega), Nat.add_sub_cancel_left]

/-! ## Unfolding what has been numbered -/

mutual

/-- **Unfolding finds the term** whose nodes stand from a position on, if it may go as
deep as the term has nodes. -/
theorem unfoldWithin_of_holdsAt (f : Formula) (start depth : Nat) :
    (t : Term) → t.size ≤ depth → f.HoldsAt start (t.nodesFrom start) →
      f.unfoldWithin depth start = some t
  | .node k cs, enough, stands => by
    rw [Term.size] at enough
    rw [nodesFrom] at stands
    obtain ⟨rest, rfl⟩ : ∃ rest, depth = rest + 1 := ⟨depth - 1, by omega⟩
    rw [unfoldWithin, stands.head, Option.map_some,
      filterMap_tops_of_holdsAt f (start + 1) rest cs (by omega) stands.tail]

/-- Unfolding finds every one of the terms whose nodes stand in a row. -/
theorem filterMap_tops_of_holdsAt (f : Formula) (start depth : Nat) :
    (ts : List Term) → sizeAll ts ≤ depth → f.HoldsAt start (nodesFromAll start ts) →
      (tops start ts).filterMap (f.unfoldWithin depth) = ts
  | [], _, _ => rfl
  | t :: ts, enough, stands => by
    rw [sizeAll] at enough
    rw [nodesFromAll] at stands
    -- the terms behind `t` begin where its nodes end
    have later := stands.right
    rw [length_nodesFrom] at later
    rw [tops, List.filterMap_cons_some
      (unfoldWithin_of_holdsAt f start depth t (by omega) stands.left),
      filterMap_tops_of_holdsAt f (start + t.size) depth ts (by omega) later]

end

/-- The formula of a term has as many nodes as the term. -/
theorem size_ofTerm (t : Term) : (ofTerm t).size = t.size := by
  rw [ofTerm, size, List.size_toArray, length_nodesFrom]

/-- Unfolding a numbered term deep enough finds the term. -/
theorem unfoldWithin_ofTerm {t : Term} {depth : Nat} (enough : t.size ≤ depth) :
    (ofTerm t).unfoldWithin depth 0 = some t := by
  refine unfoldWithin_of_holdsAt _ 0 _ t enough ?_
  intro i _
  simp [ofTerm, node?]

/-- **The term of a numbered term** is that term. -/
theorem term?_ofTerm (t : Term) : (ofTerm t).term? = some t :=
  unfoldWithin_ofTerm (Nat.le_of_eq (size_ofTerm t).symm)

/-- **Composition** puts the new top over the terms of the parts. -/
theorem term?_compose (kind : NodeKind) (parts : List Formula) :
    (compose kind parts).term? = some (.node kind (parts.filterMap term?)) :=
  term?_ofTerm _

/-- A numbered term is not empty: it has its top. -/
theorem isEmpty_ofTerm (t : Term) : (ofTerm t).isEmpty = false := by
  obtain ⟨k, cs⟩ := t
  simp [ofTerm, isEmpty, nodesFrom]

/-- **Comparison** of numbered terms is comparison of the terms. -/
theorem equiv_ofTerm (t u : Term) : (ofTerm t).equiv (ofTerm u) = t.same u := by
  have whole : t.size ≤ (ofTerm t).size + (ofTerm u).size + 1 := by rw [size_ofTerm]; omega
  have other : u.size ≤ (ofTerm t).size + (ofTerm u).size + 1 := by
    rw [size_ofTerm u]; omega
  rw [equiv, isEmpty_ofTerm, Bool.false_and, Bool.false_or, equivAt]
  simp only [unfoldWithin_ofTerm whole, unfoldWithin_ofTerm other]

end WorldModel.Formula
