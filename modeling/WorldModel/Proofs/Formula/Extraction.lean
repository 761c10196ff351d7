/-
Taking formulas apart and putting them together again.

What is taken out of a formula below some node is numbered anew. The numbers are those of a walk
in pre-order, whatever the old ones were, and nothing else is lost: whoever asks about the node, by
writing it, by collecting its atoms or by checking it, is answered alike by the part that has been
taken out. **Main statement.** `extract_faithful` says this of each node of a forest. And taking
apart and joining are inverse to each other, on conjunctions and disjunctions, exactly and not only
up to numbering: the parts at the top of a formula are joined to what the formula is when taken out
at its root, and from a conjunction come the parts that it has been made of, each taken out at its
root.

A walk in pre-order is written down as the list of the numbers that it meets (`Visits`), and of a
numbered term these are `0`, `1`, … in a row (`visits_ofTerm`). What is collected below a node is
what such a walk meets (`map_kind_of_visits`).
-/
import WorldModel.Proofs.Formula.Below
import WorldModel.Proofs.Formula.Records
import WorldModel.Proofs.Problem.Retype
import WorldModel.Proofs.World.Validity

set_option autoImplicit false

namespace WorldModel.Formula

open Term (nodesFrom nodesFromAll tops sizeAll length_nodesFrom)
open Relation (ReflTransGen)

/-! ## Walks in pre-order -/

/-- **The walk from a node** in pre-order meets the node, and then, child by child, what the walks
from its children meet. -/
inductive Visits (f : Formula) : Nat → List Nat → Prop
  | node {id : Nat} {n : Node} {idss : List (List Nat)} (found : f.node? id = some n)
      (below : List.Forall₂ (Visits f) n.children idss) : Visits f id (id :: idss.flatten)

section Walk

variable {f : Formula}

mutual

/-- **The walk from the top of a numbered term** meets its numbers in a row. -/
theorem visits_of_holdsAt (start : Nat) :
    (t : Term) → f.HoldsAt start (t.nodesFrom start) → f.Visits start (List.range' start t.size)
  | .node k cs, stands => by
    rw [nodesFrom] at stands
    obtain ⟨idss, below, row⟩ := exists_visits_of_holdsAt (start + 1) cs stands.tail
    rw [Term.size, List.range'_succ, ← row]
    exact .node stands.head below

theorem exists_visits_of_holdsAt (start : Nat) :
    (ts : List Term) → f.HoldsAt start (nodesFromAll start ts) →
      ∃ idss, List.Forall₂ f.Visits (tops start ts) idss ∧
        idss.flatten = List.range' start (sizeAll ts)
  | [], _ => ⟨[], .nil, rfl⟩
  | t :: ts, stands => by
    rw [nodesFromAll] at stands
    have later := stands.right
    rw [length_nodesFrom] at later
    have first := visits_of_holdsAt start t stands.left
    obtain ⟨idss, others, row⟩ := exists_visits_of_holdsAt (start + t.size) ts later
    refine ⟨List.range' start t.size :: idss, .cons first others, ?_⟩
    rw [List.flatten_cons, row, sizeAll, List.range'_append_1]

end

/-- **A numbered term is numbered in pre-order.** -/
theorem visits_ofTerm (t : Term) : (ofTerm t).Visits 0 (List.range (ofTerm t).size) := by
  rw [List.range_eq_range', size_ofTerm]
  refine visits_of_holdsAt 0 t fun i _ => ?_
  simp [ofTerm, node?]

/-- **What a walk meets** are the kinds of the term below its node, in this order. -/
theorem map_kind_of_visits {id : Nat} {t : Term} (below : f.Unfolds id t) {ids : List Nat}
    (walk : f.Visits id ids) : (ids.filterMap f.node?).map Node.kind = t.kinds := by
  induction t generalizing id ids with
  | node k ts ih =>
    rcases below with @⟨_, n, _, found, below⟩
    rcases walk with @⟨_, m, idss, found', walks⟩
    obtain rfl := Option.some.inj (found.symm.trans found')
    rw [List.filterMap_cons_some found, List.map_cons, Term.kinds_node]
    congr 1
    clear found found'
    generalize n.children = cs at below walks
    induction walks generalizing ts with
    | nil =>
      cases below
      rfl
    | cons walk _ later =>
      rcases below with _ | ⟨here, others⟩
      obtain ⟨first, rest⟩ := List.forall_mem_cons.1 ih
      rw [List.flatten_cons, List.filterMap_append, List.map_append, List.flatMap_cons,
        first here walk, later _ rest others]

/-- There is a walk from each node that has a term below it. -/
theorem Unfolds.exists_visits {id : Nat} {t : Term} (below : f.Unfolds id t) :
    ∃ ids, f.Visits id ids := by
  induction t generalizing id with
  | node k ts ih =>
    rcases below with @⟨_, n, _, found, below⟩
    have each : ∀ c ∈ n.children, ∃ ids, f.Visits c ids := by
      intro c mem
      obtain ⟨t, inside, under⟩ := exists_mem_of_forall₂ below mem
      exact ih t inside under
    obtain ⟨idss, walks⟩ := exists_forall₂ each
    exact ⟨_, .node found walks⟩

end Walk

/-! ## Node by node -/

/-- What is asked of the terms below several nodes may be asked of the nodes. -/
theorem map_eq_map_unfold {f : Formula} {α : Type} {cs : List Nat} (inside : ∀ c ∈ cs, c < f.size)
    (ask : Nat → α) (answer : Term → α) (asked : ∀ c t, f.unfold c = some t → ask c = answer t) :
    cs.map ask = (cs.filterMap f.unfold).map answer := by
  induction cs with
  | nil => rfl
  | cons c cs ih =>
    obtain ⟨first, later⟩ := List.forall_mem_cons.1 inside
    obtain ⟨t, under⟩ := exists_unfold_iff.2 first
    rw [List.filterMap_cons_some under, List.map_cons, List.map_cons, asked c t under, ih later]

section Forest

variable {f : Formula} (forest : f.Forest)
include forest

/-- **The atoms below a node** are those that the walk from it meets. -/
theorem Forest.atomsUnder_eq {id : Nat} {ids : List Nat} (walk : f.Visits id ids) :
    f.literalsUnder id = ((ids.filterMap f.node?).map Node.kind).filterMap NodeKind.literal? ∧
      f.fluentsUnder id = ((ids.filterMap f.node?).map Node.kind).filterMap NodeKind.fluent? := by
  obtain ⟨t, below⟩ : ∃ t, f.Unfolds id t := by
    rcases walk with ⟨found, _⟩
    exact forest.exists_unfolds (Array.getElem?_eq_some_iff.1 found).1
  rw [map_kind_of_visits below walk, literalsUnder, fluentsUnder, forest.unfold_eq_some_iff.2 below]
  exact ⟨rfl, rfl⟩

/-- **A node is written** as an atom, or as its keyword with its children behind it. -/
theorem Forest.render_eq {id : Nat} {n : Node} (found : f.node? id = some n) (casing : Casing) :
    f.render id casing = match n.kind.keyword? with
      | none => n.kind.leafText casing
      | some word =>
        "(" ++ word ++ String.join (n.children.map fun c => " " ++ f.render c casing) ++ ")" := by
  have below := map_eq_map_unfold (forest.children_inside found) (fun c => " " ++ f.render c casing)
    (fun t => " " ++ t.text casing) fun c t under => by rw [render, under]
  rw [render, forest.unfold_eq found, below]
  dsimp only
  cases word : n.kind.keyword? with
  | none => simp only [Term.text, word]
  | some _ => simp only [Term.text, word, Term.textAll_eq]

/-- **A node is valid** when its atom is, or when its children are and NOT and UNKNOWN have one. -/
theorem Forest.validAt_eq {id : Nat} {n : Node} (found : f.node? id = some n) (w : World) :
    w.validAt f id = match n.kind with
      | .and | .or | .oneOf | .expression _ | .update _ => n.children.all (w.validAt f)
      | .not | .unknown => n.children.length == 1 && n.children.all (w.validAt f)
      | .predicate l => w.validLiteral l
      | .function g => w.validFluent g
      | .number _ => true := by
  have below := map_eq_map_unfold (forest.children_inside found) (w.validAt f) w.validTerm
    fun c t under => by rw [World.validAt, under]
  have count : (n.children.filterMap f.unfold).length = n.children.length := by
    rw [← List.length_map w.validTerm, ← below, List.length_map]
  have all : w.validTerms (n.children.filterMap f.unfold) = n.children.all (w.validAt f) := by
    rw [World.validTerms_eq, ← Function.id_comp w.validTerm, ← List.all_map, ← below, List.all_map,
      Function.id_comp]
  rw [World.validAt, forest.unfold_eq found]
  dsimp only
  cases n.kind <;> simp only [World.validTerm, count, all]

end Forest

/-! ## Parts -/

/-- What is taken out below a node is the numbered term below it. -/
theorem extract_of_unfold {f : Formula} {id : Nat} {t : Term} (shown : f.unfold id = some t) :
    f.extract id = ofTerm t := by
  rw [extract, shown, ofTerm?]

/-- **Joining numbered terms** puts the top over them. -/
theorem fromSubtrees_eq_ofTerm {k : NodeKind} (top : k = .and ∨ k = .or) {parts : List Formula}
    {ts : List Term} (some_ : ts ≠ []) (eq : parts.filter (fun p => !p.isEmpty) = ts.map ofTerm) :
    fromSubtrees k.tag parts = some (ofTerm (.node k ts)) := by
  have terms : (ts.map ofTerm).filterMap term? = ts := by
    have each : term? ∘ ofTerm = some := funext term?_ofTerm
    rw [List.filterMap_map, each, List.filterMap_some]
  rw [fromSubtrees.eq_def, eq]
  match ts with
  | [] => exact absurd rfl some_
  | t :: ts =>
    rcases top with rfl | rfl <;> exact congrArg (fun us => some (ofTerm (.node _ us))) terms

theorem topLevel_of_root {f : Formula} {n : Node} (root : f.root? = some n)
    (top : n.kind = .and ∨ n.kind = .or) : f.topLevel = n.children.map f.extract := by
  rw [topLevel, root]
  rcases top with kind | kind <;> simp only [kind]

/-- **The parts at the top** of a conjunction or disjunction are the numbered terms below its
root. -/
theorem topLevel_eq_map_ofTerm {f : Formula} {n : Node} (root : f.root? = some n)
    (top : n.kind = .and ∨ n.kind = .or) (inside : ∀ c ∈ n.children, c < f.size) :
    f.topLevel = (n.children.filterMap f.unfold).map ofTerm := by
  rw [topLevel_of_root root top]
  exact map_eq_map_unfold inside f.extract ofTerm fun _ _ => extract_of_unfold

/-- Numbered terms are not empty. -/
theorem filter_map_ofTerm (ts : List Term) :
    (ts.map ofTerm).filter (fun p => !p.isEmpty) = ts.map ofTerm := by
  refine List.filter_eq_self.2 fun p mem => ?_
  obtain ⟨t, _, rfl⟩ := List.mem_map.1 mem
  rw [isEmpty_ofTerm, Bool.not_false]

/-- **Parts at the top are joined** to the formula that they have been taken from. -/
theorem fromSubtrees_topLevel {f : Formula} (acyclic : f.Acyclic) {n : Node} (root : f.root? = some n)
    (top : n.kind = .and ∨ n.kind = .or) (some_ : n.children ≠ [])
    (inside : ∀ c ∈ n.children, c < f.size) :
    fromSubtrees n.kind.tag f.topLevel = some (f.extract 0) := by
  have below : n.children.filterMap f.unfold ≠ [] := by
    intro none_
    have count := map_eq_map_unfold inside (fun _ => ()) (fun _ => ()) fun _ _ _ => rfl
    rw [none_] at count
    exact some_ (List.map_eq_nil_iff.1 count)
  have whole : f.unfold 0 = some (.node n.kind (n.children.filterMap f.unfold)) :=
    unfold_of_reached acyclic .refl root
  rw [topLevel_eq_map_ofTerm root top inside,
    fromSubtrees_eq_ofTerm top below (filter_map_ofTerm _), extract_of_unfold whole]

/-- The terms of formulas, numbered: they are what the formulas are when they are taken out at their
roots, and empty formulas have none. -/
theorem map_ofTerm_term? (fs : List Formula) : (fs.filterMap term?).map ofTerm =
    (fs.filter fun f => !f.isEmpty).map fun f => f.extract 0 := by
  induction fs with
  | nil => rfl
  | cons f fs ih =>
    cases shown : f.term? with
    | none =>
      have none_ : f.isEmpty = true := term?_eq_none_iff.1 shown
      rw [List.filterMap_cons_none shown, List.filter_cons_of_neg (by simp [none_]), ih]
    | some t =>
      have some_ : f.isEmpty = false := isEmpty_eq_false_iff.2 ⟨t, shown⟩
      rw [List.filterMap_cons_some shown, List.filter_cons_of_pos (by simp [some_]), List.map_cons,
        List.map_cons, ih, extract_of_unfold shown]

/-- **A composition is taken apart** into what it has been made of. -/
theorem topLevel_compose {k : NodeKind} (top : k = .and ∨ k = .or) (fs : List Formula) :
    (compose k fs).topLevel = (fs.filter fun f => !f.isEmpty).map fun f => f.extract 0 := by
  have made : (compose k fs).Forest := forest_ofTerm _
  have root : (compose k fs).root? = some ⟨0, k, tops 1 (fs.filterMap term?)⟩ := root?_ofTerm _
  have whole : (compose k fs).unfold 0 = some (.node k (fs.filterMap term?)) := term?_compose k fs
  have below := (Term.node.inj (Option.some.inj (whole.symm.trans (made.unfold_eq root)))).2
  rw [topLevel_eq_map_ofTerm root top (made.children_inside root), ← below, map_ofTerm_term?]

/-! ## Nothing is lost -/

/-- **Taking out and joining lose nothing.** What is taken out below a node of a forest is a forest
over the same term. Its nodes are those that a walk from the node meets, in this order, and are
numbered in it; its root reaches them all. It is written as the node is, has the same literals and
fluents in the same order, and is valid in the same worlds; and it does not change when it is taken
out once more. The parts at the top of a conjunction or disjunction are joined to what the formula
itself is when it is taken out at its root. And a conjunction falls into the formulas that it has been
made of, each of them taken out at its root. -/
theorem extract_faithful :
    (∀ (f : Formula) (id : Nat), f.Forest → id < f.size →
      (f.extract id).Forest ∧ (∃ t, f.Unfolds id t ∧ (f.extract id).Unfolds 0 t) ∧
        (∃ ids, f.Visits id ids ∧ (f.extract id).nodes.toList.map Node.kind =
          (ids.filterMap f.node?).map Node.kind) ∧
        (f.extract id).Visits 0 (List.range (f.extract id).size) ∧
        (∀ i < (f.extract id).size, ReflTransGen (f.extract id).Child 0 i) ∧
        (∀ casing, (f.extract id).render 0 casing = f.render id casing) ∧
        (f.extract id).literals = f.literalsUnder id ∧
        (f.extract id).fluents = f.fluentsUnder id ∧
        (∀ w : World, w.validFormula (f.extract id) = w.validAt f id) ∧
        (f.extract id).extract 0 = f.extract id) ∧
    (∀ (f : Formula) (n : Node), f.Acyclic → f.root? = some n → n.kind = .and ∨ n.kind = .or →
      n.children ≠ [] → (∀ c ∈ n.children, c < f.size) →
      fromSubtrees n.kind.tag f.topLevel = some (f.extract 0)) ∧
    ∀ fs : List Formula,
      (conj fs).topLevel = (fs.filter fun f => !f.isEmpty).map fun f => f.extract 0 := by
  refine ⟨fun f id forest within => ?_, fun f n acyclic => fromSubtrees_topLevel acyclic,
    topLevel_compose (.inl rfl)⟩
  obtain ⟨t, there⟩ := forest.exists_unfolds within
  have shown : f.unfold id = some t := forest.unfold_eq_some_iff.2 there
  have whole : (ofTerm t).unfold 0 = some t := term?_ofTerm t
  have below : (ofTerm t).Unfolds 0 t := (forest_ofTerm t).unfold_eq_some_iff.1 whole
  obtain ⟨ids, walk⟩ := there.exists_visits
  rw [extract_of_unfold shown]
  refine ⟨forest_ofTerm t, ⟨t, there, below⟩, ⟨ids, walk, ?_⟩, visits_ofTerm t, reached_ofTerm t,
    fun casing => ?_, ?_, ?_, fun w => ?_, extract_of_unfold whole⟩
  · rw [map_kind_of_visits there walk, ofTerm, List.toList_toArray, map_kind_nodesFrom]
  · rw [render, render, whole, shown]
  · rw [literals, literalsUnder, literalsUnder, whole, shown]
  · rw [fluents, fluentsUnder, fluentsUnder, whole, shown]
  · rw [World.validFormula, isEmpty_ofTerm, Bool.false_or, World.validAt, World.validAt, whole, shown]

/-- A goal that is numbered backwards and has a node besides, and the part below its negation. -/
theorem extract_faithful_backwards :
    let read : Formula := ⟨#[⟨0, .or, [3, 1]⟩, ⟨1, .not, [2]⟩,
      ⟨2, .predicate (.positive "p" ["a"]), []⟩, ⟨3, .predicate (.positive "q" []), []⟩]⟩
    let f := (read.push (.number 1)).1
    f.Forest ∧ (f.extract 1).Forest ∧ (f.extract 1).Visits 0 [0, 1] ∧
      (f.extract 1).render 0 .asStored = f.render 1 .asStored ∧
      fromSubtrees .or f.topLevel = some (f.extract 0) ∧
      (conj [f, .empty, f]).topLevel = [f.extract 0, f.extract 0] := by
  intro read f
  obtain ⟨part, joined, fallen⟩ := extract_faithful
  have records : ofRecords read.toRecords = .ok read := rfl
  have forest : f.Forest := (forest_ofRecords records).push (.number 1)
  obtain ⟨again, _, _, walk, _, written, _⟩ := part f 1 forest (by decide)
  exact ⟨forest, again, walk, written .asStored,
    joined f _ forest.acyclicBelowRoot rfl (.inr rfl) (by decide) (by decide), fallen [f, .empty, f]⟩

end WorldModel.Formula
