/-
What stands below a node.

`Unfolds` says without any bound which term stands below a node: the node over what stands below
its children, in their order. Unfolding goes down a fixed number of levels, and leaves out
whatever is missing. In a forest neither matters: nothing is deeper than there are nodes, and
nothing is missing, so that each node has a term, and unfolding finds it (`unfold_eq_some_iff`).
In a numbered term all nodes stand below the root (`reached_ofTerm`).
-/
import WorldModel.Proofs.Formula.Forest

set_option autoImplicit false

namespace WorldModel.Formula

open Relation (ReflTransGen)

/-! ## Terms of nodes -/

/-- **The term below a node**: its kind over the terms below its children. -/
inductive Unfolds (f : Formula) : Nat → Term → Prop
  | node {id : Nat} {n : Node} {ts : List Term} (found : f.node? id = some n)
      (below : List.Forall₂ (Unfolds f) n.children ts) : Unfolds f id (.node n.kind ts)

section Forest

variable {f : Formula} (forest : f.Forest)
include forest

/-- A node of a forest unfolds to its kind over what its children unfold to. -/
theorem Forest.unfold_eq {id : Nat} {n : Node} (found : f.node? id = some n) :
    f.unfold id = some (.node n.kind (n.children.filterMap f.unfold)) :=
  unfold_of_reached (fun a _ => forest.acyclic a) .refl found

/-- **Unfolding finds the term below a node** of a forest. -/
theorem Forest.unfold_eq_some_iff {id : Nat} {t : Term} : f.unfold id = some t ↔ f.Unfolds id t := by
  induction t generalizing id with
  | node k ts ih =>
    constructor
    · intro shown
      obtain ⟨n, found⟩ : ∃ n, f.node? id = some n :=
        ⟨_, Array.getElem?_eq_getElem (exists_unfold_iff.1 ⟨_, shown⟩)⟩
      obtain ⟨rfl, rfl⟩ := Term.node.inj (Option.some.inj (shown.symm.trans (forest.unfold_eq found)))
      refine .node found (forall₂_filterMap fun c mem => ?_)
      obtain ⟨u, under⟩ := exists_unfold_iff.2 (forest.children_inside found c mem)
      exact ⟨u, under, (ih u (List.mem_filterMap.2 ⟨c, mem, under⟩)).1 under⟩
    · rintro (@⟨_, n, _, found, below⟩)
      have shown : List.Forall₂ (fun c u => f.unfold c = some u) n.children ts :=
        forall₂_imp_of_mem below fun _ _ u mem under => (ih u mem).2 under
      rw [forest.unfold_eq found, filterMap_eq_of_forall₂ shown]

/-- Each node has a term below it. -/
theorem Forest.exists_unfolds {id : Nat} (within : id < f.size) : ∃ t, f.Unfolds id t := by
  obtain ⟨t, shown⟩ := exists_unfold_iff.2 within
  exact ⟨t, forest.unfold_eq_some_iff.1 shown⟩

end Forest

/-! ## Numbered terms -/

/-- **The root of a numbered term reaches every node**: each other number is listed by a node
before it. -/
theorem reached_ofTerm (t : Term) : ∀ id < (ofTerm t).size, ReflTransGen (ofTerm t).Child 0 id := by
  have edges : ∀ a b, (ofTerm t).Child a b → a < b := by
    intro a b edge
    rw [← append_empty] at edge
    rcases child_append edge with ⟨n, found, _⟩ | ⟨_, later⟩
    · simp [node?, empty] at found
    · exact later
  intro id
  induction id using Nat.strong_induction_on with
  | _ id ih =>
    intro within
    rw [size_ofTerm] at within
    have listed : id ∈ 0 :: (ofTerm t).childList :=
      (perm_children_nodesFrom 0 t).mem_iff.2 (List.mem_range'_1.2 ⟨Nat.zero_le _, by omega⟩)
    rcases List.mem_cons.1 listed with rfl | listed
    · exact .refl
    · obtain ⟨a, edge⟩ := mem_childList.1 listed
      have before := edges a id edge
      exact (ih a before (by rw [size_ofTerm]; omega)).tail edge

theorem reached_ofTerm? (o : Option Term) :
    ∀ id < (ofTerm? o).size, ReflTransGen (ofTerm? o).Child 0 id := by
  cases o with
  | none =>
    intro id within
    cases within
  | some t => exact reached_ofTerm t

end WorldModel.Formula
