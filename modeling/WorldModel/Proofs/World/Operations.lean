/-
What each operation on a world can do.

Every operation either accepts and leaves a world that differs in one place, or refuses
and leaves the world as it was. There is one statement for each operation, with the
condition under which each case arises, so that nothing further on has to look at how
an operation is carried out. Adding a fluent and giving it a new value share their
cases: the new value goes to the fluent that is stored under the key (`setValue`), and
that changes no name and no argument (`map_key_setValue`).
-/
import WorldModel.Proofs.World.Validity
import WorldModel.World.Cascade

set_option autoImplicit false

namespace WorldModel.World

/-! ## Objects -/

/-- **Adding an object**: it was there, it is new and of a declared type, or it is
refused. -/
theorem addObject_cases (w : World) (e : Entity) :
    (∃ old, w.object? e.name = some old ∧ old.typeName = e.typeName ∧ w.addObject e = accepted w) ∨
      (w.object? e.name = none ∧ w.domain.declares e.typeName = true ∧
        w.addObject e = accepted { w with objects := w.objects ++ [e] }) ∨
      ∃ r, w.addObject e = w.refused r := by
  rw [addObject]
  cases declared : w.domain.declares e.typeName with
  | false => exact .inr (.inr ⟨_, rfl⟩)
  | true =>
    cases found : w.object? e.name with
    | none => exact .inr (.inl ⟨rfl, rfl, rfl⟩)
    | some old =>
      by_cases same : old.typeName = e.typeName
      · exact .inl ⟨old, rfl, same, by simp [same]⟩
      · exact .inr (.inr ⟨_, by simp [same]; rfl⟩)

/-! ## Facts -/

/-- **Adding a fact**: it was there, it is new and valid, or it is refused. -/
theorem addFact_cases (w : World) (l : Literal) :
    (w.hasFact l = true ∧ w.addFact l = accepted w) ∨
      (w.hasFact l = false ∧ w.validLiteral l = true ∧
        w.addFact l = accepted { w with facts := w.facts ++ [w.spellLiteral l] }) ∨
      (w.hasFact l = false ∧ w.validLiteral l = false ∧ ∃ r, w.addFact l = w.refused r) := by
  simp only [addFact, hasFact_spell, validLiteral_spell]
  cases w.hasFact l with
  | true => exact .inl ⟨rfl, rfl⟩
  | false =>
    cases w.validLiteral l with
    | true => exact .inr (.inl ⟨rfl, rfl, rfl⟩)
    | false => exact .inr (.inr ⟨rfl, rfl, _, rfl⟩)

/-- **Removing a fact**: the first that states it goes, or it is invalid and the removal
is refused. -/
theorem removeFact_cases (w : World) (l : Literal) :
    (w.validLiteral l = true ∧ w.removeFact l =
        accepted { w with facts := w.facts.eraseP (·.sameFact (w.spellLiteral l)) }) ∨
      (w.validLiteral l = false ∧ ∃ r, w.removeFact l = w.refused r) := by
  rw [removeFact]
  cases w.validLiteral l with
  | true => exact .inl ⟨rfl, rfl⟩
  | false => exact .inr ⟨rfl, _, rfl⟩

/-! ## Fluents -/

/-- **Giving a stored fluent a value**: it is valid and stored, or the update is
refused. -/
theorem updateFluent_cases (w : World) (f : Fluent) :
    (w.validFluent f = true ∧ w.hasFluent f = true ∧
        w.updateFluent f = accepted { w with fluents := setValue (w.spellFluent f) w.fluents }) ∨
      ((w.validFluent f && w.hasFluent f) = false ∧ ∃ r, w.updateFluent f = w.refused r) := by
  simp only [updateFluent, validFluent_spell]
  rw [show w.fluents.any (·.sameKey (w.spellFluent f)) = w.hasFluent f from rfl]
  cases w.validFluent f with
  | false => exact .inr ⟨rfl, _, rfl⟩
  | true =>
    cases w.hasFluent f with
    | true => exact .inl ⟨rfl, rfl, rfl⟩
    | false => exact .inr ⟨rfl, _, rfl⟩

/-- **Adding a fluent**: it is stored and takes the new value, it is new, or it is
invalid and refused. -/
theorem addFluent_cases (w : World) (f : Fluent) :
    (w.validFluent f = true ∧ w.hasFluent f = true ∧
        w.addFluent f = accepted { w with fluents := setValue (w.spellFluent f) w.fluents }) ∨
      (w.validFluent f = true ∧ w.hasFluent f = false ∧
        w.addFluent f = accepted { w with fluents := w.fluents ++ [w.spellFluent f] }) ∨
      (w.validFluent f = false ∧ ∃ r, w.addFluent f = w.refused r) := by
  simp only [addFluent, hasFluent_spell, validFluent_spell]
  cases stored : w.hasFluent f with
  | true =>
    rcases updateFluent_cases w (w.spellFluent f) with ⟨valid, _, update⟩ | ⟨missing, r, update⟩
    · rw [validFluent_spell] at valid
      rw [spellFluent_spell] at update
      exact .inl ⟨valid, rfl, by rw [if_pos rfl, update]⟩
    · rw [validFluent_spell, hasFluent_spell, stored, Bool.and_true] at missing
      exact .inr (.inr ⟨missing, r, by rw [if_pos rfl, update]⟩)
  | false =>
    cases w.validFluent f with
    | true => exact .inr (.inl ⟨rfl, rfl, rfl⟩)
    | false => exact .inr (.inr ⟨rfl, _, rfl⟩)

/-- **Removing a fluent**: the first of its key goes, or it is invalid and the removal
is refused. -/
theorem removeFluent_cases (w : World) (f : Fluent) :
    (w.validFluent f = true ∧ w.removeFluent f =
        accepted { w with fluents := w.fluents.eraseP (·.sameKey (w.spellFluent f)) }) ∨
      (w.validFluent f = false ∧ ∃ r, w.removeFluent f = w.refused r) := by
  rw [removeFluent]
  cases w.validFluent f with
  | true => exact .inl ⟨rfl, rfl⟩
  | false => exact .inr ⟨rfl, _, rfl⟩

/-- **A new value** changes neither names nor arguments. -/
theorem map_key_setValue (f : Fluent) (gs : List Fluent) :
    (setValue f gs).map (fun g => (g.name, g.args)) = gs.map fun g => (g.name, g.args) := by
  induction gs with
  | nil => rfl
  | cons g gs ih =>
    rw [setValue]
    split
    · rfl
    · rw [List.map_cons, List.map_cons, ih]

/-! ## Goals -/

/-- **Setting the goal**: it is valid and becomes the goal, or it is refused. -/
theorem setGoal_cases (w : World) (f : Formula) :
    (w.validFormula f = true ∧ w.setGoal f = accepted { w with goal := w.spellFormula f }) ∨
      (w.validFormula f = false ∧ ∃ r, w.setGoal f = w.refused r) := by
  rw [setGoal]
  cases w.validFormula f with
  | true => exact .inl ⟨rfl, rfl⟩
  | false => exact .inr ⟨rfl, _, rfl⟩

/-! ## Contingent facts -/

/-- **Adding a contingent fact**: it has a proper shape, is valid and new, and is
stored, or it is refused. -/
theorem addContingent_cases (w : World) (f : Formula) :
    (shapeFault? f = none ∧ w.validFormula f = true ∧
        w.hasContingent (w.spellFormula f) = false ∧
        w.addContingent f = w.store (w.spellFormula f)) ∨
      ∃ r, w.addContingent f = w.refused r := by
  rw [addContingent]
  cases shapeFault? f with
  | some reason => exact .inr ⟨_, rfl⟩
  | none =>
    cases w.validFormula f with
    | false => exact .inr ⟨_, rfl⟩
    | true =>
      simp only [Bool.not_true, Bool.false_eq_true, if_false]
      cases stored : w.hasContingent (w.spellFormula f) with
      | true => exact .inr ⟨_, rfl⟩
      | false => exact .inl ⟨trivial, trivial, rfl, rfl⟩

/-- **Removing a contingent fact**: it is invalid and the removal is refused; it is not
stored; it is taken out and, being an unknown fact, settled; or it is just taken out. -/
theorem removeContingent_cases (w : World) (f : Formula) :
    (w.validFormula f = false ∧ ∃ r, w.removeContingent f = w.refused r) ∨
      (w.contingents.any (·.equiv (w.spellFormula f)) = false ∧
        w.removeContingent f = accepted w) ∨
      (∃ l, (w.spellFormula f).rootTag? = some .unknown ∧
        (w.spellFormula f).literals.head? = some l ∧ w.removeContingent f =
          settle { w with contingents := w.contingents.eraseP (·.equiv (w.spellFormula f)) } l) ∨
      w.removeContingent f =
        accepted { w with contingents := w.contingents.eraseP (·.equiv (w.spellFormula f)) } := by
  rw [removeContingent]
  cases w.validFormula f with
  | false => exact .inl ⟨rfl, _, rfl⟩
  | true =>
    simp only [Bool.not_true, Bool.false_eq_true, if_false]
    cases w.contingents.any (·.equiv (w.spellFormula f)) with
    | false => exact .inr (.inl ⟨rfl, rfl⟩)
    | true =>
      simp only [Bool.not_true, Bool.false_eq_true, if_false]
      split
      · next tag literals =>
        exact .inr (.inr (.inl ⟨_, tag, by rw [literals]; rfl, rfl⟩))
      · exact .inr (.inr (.inr rfl))

/-- **Storing** adds a fact or a contingent fact. -/
theorem store_cases (w : World) (f : Formula) :
    (∃ l, soleDisjunct? f = some l ∧ w.store f = w.addFact l) ∨
      (soleDisjunct? f = none ∧
        w.store f = accepted { w with contingents := w.contingents ++ [f] }) := by
  rw [store]
  cases soleDisjunct? f with
  | some l => exact .inl ⟨l, rfl, rfl⟩
  | none => exact .inr ⟨rfl, rfl⟩

end WorldModel.World
