/-
What the check of a formula looks at.

A formula is checked on the way down from its root, and at an atom or a number the check turns
back. What lists the atoms of a formula goes on below them. **Main statement.**
`validFormula_checks`: the check passes when every node that it sees passes, a formula is valid
throughout when every node that the root reaches does, and the two agree where nothing stands
below an atom or a number. A goal that is set then names stored objects only.

Both are recursions over the term that the formula unfolds to, and each of them is turned into
a statement about the nodes on the way by the same lemma (`Formula.forall_below_iff`). The
constructors put nothing below an atom, but records may: then a goal can be set that names an
object which is not there (`exists_valid_with_invalid_literal`).
-/
import WorldModel.Proofs.Formula.Records
import WorldModel.Proofs.World.Goal

set_option autoImplicit false

namespace WorldModel

open Relation (ReflTransGen TransGen)

/-! ## Nodes on the way down -/

namespace Formula

/-- The check goes from a node to its children, unless it is an atom or a number. -/
def Sees (f : Formula) (a b : Nat) : Prop :=
  ∃ n, f.node? a = some n ∧ n.kind.keyword? ≠ none ∧ b ∈ n.children

variable {f : Formula}

theorem child_of_sees {a b : Nat} (sees : f.Sees a b) : f.Child a b := by
  obtain ⟨n, found, _, mem⟩ := sees
  exact ⟨n, found, mem⟩

end Formula

namespace World

open Formula (Sees)

/-! ## The check and what it stands for -/

/-- **The node passes**: its atom is valid, if it has one, and a NOT or an UNKNOWN has one
child. -/
def Passes (w : World) (n : Node) : Prop :=
  w.ValidKind n.kind ∧ (n.kind = .not ∨ n.kind = .unknown → n.children.length = 1)

/-- **Valid throughout**: all atoms that a formula lists are valid, and every NOT and UNKNOWN
that its root reaches has one child. -/
structure ValidThroughout (w : World) (f : Formula) : Prop where
  literals : ∀ l ∈ f.literals, w.validLiteral l = true
  fluents : ∀ g ∈ f.fluents, w.validFluent g = true
  single : ∀ id n, ReflTransGen f.Child 0 id → f.node? id = some n →
    n.kind = .not ∨ n.kind = .unknown → n.children.length = 1

section Checked

variable (w : World) {f : Formula} (acyclic : f.Acyclic)

/-- **Valid kinds** are the part of it that is about atoms. -/
theorem forall_atoms_iff : ((∀ l ∈ f.literals, w.validLiteral l = true) ∧
    ∀ g ∈ f.fluents, w.validFluent g = true) ↔
      ∀ t, f.term? = some t → ∀ k ∈ t.kinds, w.ValidKind k := by
  cases shown : f.term? with
  | none =>
    obtain ⟨literals, fluents⟩ := Formula.atoms_of_term?_eq_none shown
    simp [literals, fluents]
  | some t =>
    rw [Formula.literals_of_term? shown, Formula.fluents_of_term? shown]
    constructor
    · rintro ⟨literals, fluents⟩ u same k mem
      obtain rfl := Option.some.inj same
      match k with
      | .predicate l => exact literals l (Term.mem_literals.2 mem)
      | .function g => exact fluents g (Term.mem_fluents.2 mem)
      | .and | .or | .not | .unknown | .oneOf | .expression _ | .update _ | .number _ => trivial
    · intro kinds
      exact ⟨fun l mem => kinds t rfl _ (Term.mem_literals.1 mem),
        fun g mem => kinds t rfl _ (Term.mem_fluents.1 mem)⟩

include acyclic

/-- **The check passes** when every node passes that it sees. -/
theorem validFormula_iff_seen (inside : ∀ c ∈ f.childList, c < f.size) :
    w.validFormula f = true ↔
      ∀ id n, ReflTransGen f.Sees 0 id → f.node? id = some n → w.Passes n := by
  cases shown : f.term? with
  | none => simp [validFormula, Formula.term?_eq_none_iff.1 shown, Formula.node?_of_term?_eq_none shown]
  | some t =>
    rw [validFormula_of_term? shown]
    refine Formula.forall_below_iff acyclic (P := fun t => w.validTerm t = true) (Q := w.Passes)
      (fun _ _ => Formula.child_of_sees) (fun id n found => ?_) .refl shown
    -- every child is a node, so that there are as many terms as there are children
    have count : (n.children.filterMap f.unfold).length = n.children.length := by
      refine List.filterMap_length_eq_length.2 fun c mem => ?_
      have node := inside c (Formula.mem_childList.2 ⟨id, n, found, mem⟩)
      exact Option.isSome_iff_exists.2 (Formula.exists_unfold_iff.2 node)
    have sees : ∀ c, f.Sees id c ↔ n.kind.keyword? ≠ none ∧ f.Child id c := by
      intro c
      rw [Sees, Formula.Child, found]
      simp
    rw [validTerm_iff, count, Formula.forall_mem_filterMap_unfold found]
    simp only [sees]
    exact and_congr_right fun _ => ⟨fun all c both => all both.1 c both.2,
      fun all word c child => all c ⟨word, child⟩⟩

/-- **Valid throughout** is a formula when every node passes that its root reaches. -/
theorem validThroughout_iff : w.ValidThroughout f ↔
    ∀ id n, ReflTransGen f.Child 0 id → f.node? id = some n → w.Passes n := by
  have atoms := (w.forall_atoms_iff (f := f)).trans (Formula.forall_kinds_iff acyclic)
  constructor
  · rintro ⟨literals, fluents, single⟩ id n path found
    exact ⟨atoms.1 ⟨literals, fluents⟩ id n path found, single id n path found⟩
  · intro each
    obtain ⟨literals, fluents⟩ := atoms.2 fun id n path found => (each id n path found).1
    exact ⟨literals, fluents, fun id n path found => (each id n path found).2⟩

omit acyclic in
/-- **The atoms of a formula that is valid throughout** name stored objects, also once they are
spelled. -/
theorem exists_object_of_validThroughout (valid : w.ValidThroughout f) {object : String}
    (names : (w.spellFormula f).mentions object = true) : ∃ e ∈ w.objects, e.name = object := by
  -- a name that no object has is in no valid atom, and so nowhere in the formula
  by_contra other
  have quiet : ∀ as : List Argument, (∀ a ∈ as, ∃ e, w.object? a.name = some e) →
      argumentsMention as object = false := by
    intro as stored
    refine List.any_eq_false.2 fun a mem same => ?_
    obtain ⟨e, found⟩ := stored a mem
    obtain ⟨inside, name⟩ := mem_of_object? found
    exact other ⟨e, inside, name.trans (beq_iff_eq.1 same)⟩
  have silent : ∀ k, w.ValidKind k → (w.spellKind k).Silent object := by
    intro k valid
    match k with
    | .predicate l => exact quiet l.args fun a mem => object?_of_validLiteral valid mem
    | .function g => exact quiet g.args fun a mem => object?_of_validFluent valid mem
    | .and | .or | .not | .unknown | .oneOf | .expression _ | .update _ | .number _ => trivial
  have kinds := w.forall_atoms_iff.1 ⟨valid.literals, valid.fluents⟩
  cases shown : (w.spellFormula f).term? with
  | none =>
    rw [Formula.mentions_of_term?_eq_none shown] at names
    cases names
  | some u =>
    have nowhere : u.mentions object = false := by
      rw [term?_spellFormula] at shown
      obtain ⟨t, term, rfl⟩ := Option.map_eq_some_iff.1 shown
      rw [Term.mentions_eq_false_iff_silent, Term.kinds_mapKinds]
      exact List.forall_mem_map.2 fun k mem => silent k (kinds t term k mem)
    rw [Formula.mentions_of_term? shown, nowhere] at names
    cases names

/-- **What the check looks at.** It passes when every node passes that it sees, and a formula is
valid throughout when every node passes that the root reaches. Where nothing stands below an
atom or a number, the one is the other, and a goal that is set names stored objects only. -/
theorem validFormula_checks (inside : ∀ c ∈ f.childList, c < f.size) :
    (w.validFormula f = true ↔
        ∀ id n, ReflTransGen f.Sees 0 id → f.node? id = some n → w.Passes n) ∧
      (w.ValidThroughout f ↔
        ∀ id n, ReflTransGen f.Child 0 id → f.node? id = some n → w.Passes n) ∧
      (w.ValidThroughout f → w.validFormula f = true) ∧
      ((w.setGoal f).refusal = none ↔ w.validFormula f = true) ∧
      ((∀ id n, ReflTransGen f.Child 0 id → f.node? id = some n →
          n.kind.keyword? = none → n.children = []) →
        (w.validFormula f = true ↔ w.ValidThroughout f) ∧
          ((w.setGoal f).refusal = none → ∀ object,
            (w.setGoal f).world.goal.mentions object = true → ∃ e ∈ w.objects, e.name = object)) := by
  have seen := w.validFormula_iff_seen acyclic inside
  have throughout := w.validThroughout_iff acyclic
  have accepted : (w.setGoal f).refusal = none ↔ w.validFormula f = true := by
    rw [setGoal]
    cases w.validFormula f <;> simp [World.accepted, refused]
  have weaker : w.ValidThroughout f → w.validFormula f = true := by
    rw [seen, throughout]
    exact fun each id n path =>
      each id n (ReflTransGen.mono (fun _ _ => Formula.child_of_sees) _ _ path)
  refine ⟨seen, throughout, weaker, accepted, fun bare => ?_⟩
  -- where nothing stands below an atom or a number, the check sees all that the root reaches
  have path : ∀ id, ReflTransGen f.Child 0 id → ReflTransGen f.Sees 0 id := by
    intro id path
    induction path with
    | refl => exact .refl
    | tail before edge ih =>
      obtain ⟨n, found, mem⟩ := edge
      refine ih.tail ⟨n, found, fun leaf => ?_, mem⟩
      rw [bare _ n before found leaf] at mem
      cases mem
  have whole : w.validFormula f = true ↔ w.ValidThroughout f := by
    refine ⟨fun valid => throughout.2 fun id n reached => seen.1 valid id n (path id reached), ?_⟩
    exact weaker
  refine ⟨whole, fun taken object names => ?_⟩
  have valid := accepted.1 taken
  rw [setGoal, if_pos valid] at names
  exact w.exists_object_of_validThroughout (whole.1 valid) names

end Checked

/-- One object is to be clear and another is not: all that the goal names is there. -/
theorem validFormula_checks_clearing :
    let w := (empty clearOnly).run [.addObject ⟨"a", "object"⟩, .addObject ⟨"b", "object"⟩]
    let f := Formula.ofTerm (.node .and [.node .not [.node (.predicate (.positive "Clear" ["a"])) []],
      .node (.predicate (.positive "clear" ["b"])) []])
    (w.setGoal f).world.goal.mentions "a" = true ∧ w.ValidThroughout f ∧
      ∀ object, (w.setGoal f).world.goal.mentions object = true → ∃ e ∈ w.objects, e.name = object := by
  intro w f
  have acyclic : f.Acyclic := Formula.acyclic_ofTerm _
  have inside : ∀ c ∈ f.childList, c < f.size := (Formula.forest_ofTerm _).inside
  have bare : ∀ n ∈ f.nodes, n.kind.keyword? = none → n.children = [] := by decide +kernel
  obtain ⟨_, _, _, accepted, agree⟩ := validFormula_checks w acyclic inside
  obtain ⟨whole, names⟩ := agree fun id n _ found => bare n (Array.mem_of_getElem? found)
  have valid : w.validFormula f = true := by decide +kernel
  exact ⟨by decide +kernel, whole.1 valid, names (accepted.2 valid)⟩

/-- **A goal that names what is not there.** A literal is put below another by the records of a
formula; the check does not see it, and the goal is set. -/
theorem exists_valid_with_invalid_literal : ∃ d ms rs f, Formula.ofRecords rs = .ok f ∧ f.Acyclic ∧
    let w := (empty d).run ms
    w.validFormula f = true ∧ ¬ w.ValidThroughout f ∧ (w.setGoal f).refusal = none ∧
      ∃ object, (w.setGoal f).world.goal.mentions object = true ∧ ∀ e ∈ w.objects, e.name ≠ object := by
  let f : Formula := ⟨#[⟨0, .predicate (.positive "clear" ["a"]), [1]⟩,
    ⟨1, .predicate (.positive "ghost" ["zzz"]), []⟩]⟩
  have read : Formula.ofRecords f.toRecords = .ok f := rfl
  refine ⟨clearOnly, [.addObject ⟨"a", "object"⟩], f.toRecords, f, read,
    fun id _ => (Formula.forest_ofRecords read).acyclic id, by decide +kernel, fun whole => ?_,
    by decide +kernel, "zzz", by decide +kernel, by decide +kernel⟩
  have valid := whole.literals (.positive "ghost" ["zzz"]) (by decide +kernel)
  revert valid
  decide +kernel

end World

end WorldModel
