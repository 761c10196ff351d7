/-
Facts as a set and fluents as a map.

Facts are kept in a list and so are fluents, and the operations work on the first entry that
fits: the removal of a fact takes out the first that states it, and a new value goes to the
first fluent of the key. That this is all that anyone can see of them is due to the
invariant of the store, by which there is never a second one (`Sound.facts_distinct`,
`Sound.fluents_distinct`). Where entries are different, taking out the first that fits is
the same as leaving out all that fit (`eraseP_eq_filter_of_apart`).

**Main statement.** `lookups_run`: in every world that a run reaches, an operation on facts
that is carried out adds one fact to the set or takes one out of it, and an operation on
fluents changes the map at one key. Facts and keys are those in the domain's spelling. The
entries that stay keep their order, and nothing else in the world changes.
-/
import WorldModel.Proofs.World.Store
import WorldModel.World.Satisfaction

set_option autoImplicit false

namespace WorldModel

/-! ## Entries that state the same -/

/-- What states the same fact states the same as any third literal, or neither does. -/
theorem Literal.sameFact_congr {l m : Literal} (same : l.sameFact m = true) (n : Literal) :
    l.sameFact n = m.sameFact n := by
  obtain ⟨negated, name, args⟩ := Literal.sameFact_iff.1 same
  rw [Bool.eq_iff_iff, Literal.sameFact_iff, Literal.sameFact_iff, negated, name, args]

theorem Literal.sameFact_comm (l m : Literal) : l.sameFact m = m.sameFact l := by
  rw [Bool.eq_iff_iff, Literal.sameFact_iff, Literal.sameFact_iff, eq_comm (a := l.negated),
    eq_comm (a := l.name), eq_comm (a := l.args.map (·.name))]

theorem Fluent.sameKey_congr {f g : Fluent} (same : f.sameKey g = true) (h : Fluent) :
    f.sameKey h = g.sameKey h := by
  obtain ⟨name, args⟩ := Fluent.sameKey_iff.1 same
  rw [Bool.eq_iff_iff, Fluent.sameKey_iff, Fluent.sameKey_iff, name, args]

theorem Fluent.sameKey_comm (f g : Fluent) : f.sameKey g = g.sameKey f := by
  rw [Bool.eq_iff_iff, Fluent.sameKey_iff, Fluent.sameKey_iff, eq_comm (a := f.name),
    eq_comm (a := f.args.map (·.name))]

namespace World

variable {w v : World}

/-! ## Facts -/

/-- A stored fact is one of those that are left if it does not state the one taken out. -/
theorem any_filter_sameFact (facts : List Literal) (gone m : Literal) :
    (facts.filter fun l => !l.sameFact gone).any (·.sameFact m) =
      (facts.any (·.sameFact m) && !m.sameFact gone) := by
  induction facts with
  | nil => rfl
  | cons l facts ih =>
    cases states : l.sameFact m with
    | false =>
      -- it plays no part, whether it is left or not
      cases taken : l.sameFact gone <;> simp [states, taken, ih]
    | true =>
      have same := Literal.sameFact_congr states gone
      cases taken : l.sameFact gone <;> simp [states, taken, ih, ← same]

/-- **A fact has been added** to the set: it is stated, and of any other fact that it is
stated is as true as before. -/
structure FactAdded (w v : World) (l : Literal) : Prop where
  stated : ∀ m, v.hasFact m = true ↔
    w.hasFact m = true ∨ (w.spellLiteral m).sameFact (w.spellLiteral l) = true
  /-- The facts that were there come first. -/
  order : w.facts <+: v.facts
  rest : v = { w with facts := v.facts }

/-- **A fact has been removed** from the set. -/
structure FactRemoved (w v : World) (l : Literal) : Prop where
  stated : ∀ m, v.hasFact m = true ↔
    w.hasFact m = true ∧ (w.spellLiteral m).sameFact (w.spellLiteral l) = false
  order : v.facts = w.facts.filter fun m => !m.sameFact (w.spellLiteral l)
  rest : v = { w with facts := v.facts }

/-- Whether a fact is stated does not depend on which literal states it. -/
theorem hasFact_congr {l m : Literal}
    (same : (w.spellLiteral m).sameFact (w.spellLiteral l) = true) : w.hasFact m = w.hasFact l := by
  have fits : (fun s : Literal => s.sameFact (w.spellLiteral m)) =
      fun s => s.sameFact (w.spellLiteral l) := by
    funext s
    rw [Literal.sameFact_comm s, Literal.sameFact_comm s, Literal.sameFact_congr same]
  rw [hasFact, hasFact, fits]

/-- **Adding a fact** makes a valid one stated, and an invalid one is refused. -/
theorem hasFact_addFact (w : World) (l m : Literal) : (w.addFact l).world.hasFact m = true ↔
    w.hasFact m = true ∨ w.validLiteral l = true ∧
      (w.spellLiteral m).sameFact (w.spellLiteral l) = true := by
  rcases addFact_cases w l with ⟨stored, eq⟩ | ⟨_, valid, eq⟩ | ⟨_, invalid, r, eq⟩ <;> rw [eq]
  · -- it was stated before
    refine (or_iff_left_of_imp ?_).symm
    rintro ⟨_, same⟩
    exact (hasFact_congr same).trans stored
  · have stated : World.hasFact { w with facts := w.facts ++ [w.spellLiteral l] } m =
        (w.hasFact m || (w.spellLiteral l).sameFact (w.spellLiteral m)) := by
      simp only [hasFact, spellLiteral, List.any_append, List.any_cons, List.any_nil, Bool.or_false]
    rw [world_accepted, stated, Bool.or_eq_true, Literal.sameFact_comm (w.spellLiteral l)]
    exact or_congr_right (and_iff_right valid).symm
  · rw [world_refused, invalid]
    simp

theorem factAdded (l : Literal) (carried : (w.addFact l).refusal = none) :
    FactAdded w (w.addFact l).world l := by
  have added := hasFact_addFact w l
  rcases addFact_cases w l with ⟨stored, eq⟩ | ⟨_, valid, eq⟩ | ⟨_, _, r, eq⟩ <;>
    rw [eq] at carried added ⊢
  · refine ⟨fun m => (or_iff_left_of_imp fun same => ?_).symm, List.prefix_refl _, rfl⟩
    exact (hasFact_congr same).trans stored
  · refine ⟨fun m => (added m).trans ?_, List.prefix_append _ _, rfl⟩
    exact or_congr_right (and_iff_right valid)
  · cases carried

theorem Sound.factRemoved (h : w.Sound) (l : Literal) (carried : (w.removeFact l).refusal = none) :
    FactRemoved w (w.removeFact l).world l := by
  rcases removeFact_cases w l with ⟨_, eq⟩ | ⟨_, r, eq⟩ <;> rw [eq] at carried ⊢
  · have order : w.facts.eraseP (·.sameFact (w.spellLiteral l)) =
        w.facts.filter fun m => !m.sameFact (w.spellLiteral l) := by
      apply eraseP_eq_filter_of_apart
      refine h.facts_distinct.imp fun {m n} differ => ?_
      rintro ⟨first, second⟩
      rw [Literal.sameFact_congr first, Literal.sameFact_comm, second] at differ
      cases differ
    refine ⟨fun m => ?_, order, rfl⟩
    have stated := any_filter_sameFact w.facts (w.spellLiteral l) (w.spellLiteral m)
    rw [← order] at stated
    have left : World.hasFact
        { w with facts := w.facts.eraseP (·.sameFact (w.spellLiteral l)) } m =
          (w.hasFact m && !(w.spellLiteral m).sameFact (w.spellLiteral l)) := stated
    rw [world_accepted, left, Bool.and_eq_true, Bool.not_eq_true']
  · cases carried

/-! ## Fluents -/

/-- **The fluents have been given a value** at one key: the key has it, and every other key
has the value that it had, or none. -/
structure ValueSet (w v : World) (f : Fluent) : Prop where
  value : ∀ g, v.valueOf g = if g.sameKey (w.spellFluent f) then some f.value else w.valueOf g
  /-- The keys that were there come first. -/
  order : w.fluents.map (fun g => (g.name, g.args)) <+: v.fluents.map fun g => (g.name, g.args)
  others : (v.fluents.filter fun g => !g.sameKey (w.spellFluent f)) =
    w.fluents.filter fun g => !g.sameKey (w.spellFluent f)
  rest : v = { w with fluents := v.fluents }

/-- **A fluent has been removed** from the map. -/
structure ValueRemoved (w v : World) (f : Fluent) : Prop where
  value : ∀ g, v.valueOf g = if g.sameKey (w.spellFluent f) then none else w.valueOf g
  order : v.fluents = w.fluents.filter fun g => !g.sameKey (w.spellFluent f)
  rest : v = { w with fluents := v.fluents }

/-- **A new value is found** under its key if the key is stored, and nowhere else. -/
theorem find?_setValue (f g : Fluent) (fluents : List Fluent) :
    ((setValue f fluents).find? (·.sameKey g)).map (·.value) =
      if g.sameKey f then (fluents.find? (·.sameKey f)).map fun _ => f.value
      else (fluents.find? (·.sameKey g)).map (·.value) := by
  induction fluents with
  | nil => simp [setValue]
  | cons h fluents ih =>
    rw [setValue]
    by_cases first : h.sameKey f = true
    · rw [if_pos first]
      -- the entry has another value now, and the same key
      have key : Fluent.sameKey { h with value := f.value } g = h.sameKey g := rfl
      have same : h.sameKey g = g.sameKey f := by
        rw [Fluent.sameKey_comm h, Fluent.sameKey_comm g, Fluent.sameKey_comm g,
          Fluent.sameKey_congr first]
      cases asked : g.sameKey f <;>
        simp [key, same, asked, first]
    · rw [if_neg first, List.find?_cons, List.find?_cons, List.find?_cons]
      rw [Bool.not_eq_true] at first
      rw [first]
      cases hit : h.sameKey g with
      | false => exact ih
      | true =>
        have other : g.sameKey f = false := by rw [← Fluent.sameKey_congr hit, first]
        simp [other]

/-- The fluents of other keys stay as they are. -/
theorem filter_setValue (f : Fluent) (fluents : List Fluent) :
    ((setValue f fluents).filter fun g => !g.sameKey f) =
      fluents.filter fun g => !g.sameKey f := by
  induction fluents with
  | nil => rfl
  | cons h fluents ih =>
    rw [setValue]
    by_cases first : h.sameKey f = true
    · have key : Fluent.sameKey { h with value := f.value } f = true := first
      rw [if_pos first, List.filter_cons_of_neg (by simp [key]),
        List.filter_cons_of_neg (by simp [first])]
    · rw [if_neg first, List.filter_cons_of_pos (by simpa using first),
        List.filter_cons_of_pos (by simpa using first), ih]

/-- A stored fluent takes the new value. -/
theorem valueSet_setValue {f : Fluent} (stored : w.hasFluent f = true) :
    ValueSet w { w with fluents := setValue (w.spellFluent f) w.fluents } f := by
  have found : (w.fluents.find? (·.sameKey (w.spellFluent f))).isSome = true := by
    rw [List.find?_isSome]
    exact List.any_eq_true.1 stored
  refine ⟨fun g => ?_, ?_, filter_setValue _ _, rfl⟩
  · obtain ⟨h, eq⟩ := Option.isSome_iff_exists.1 found
    rw [valueOf, find?_setValue, eq]
    rfl
  · exact (map_key_setValue (w.spellFluent f) w.fluents).symm ▸ List.prefix_refl _

theorem valueSet_addFluent (f : Fluent) (carried : (w.addFluent f).refusal = none) :
    ValueSet w (w.addFluent f).world f := by
  rcases addFluent_cases w f with ⟨_, stored, eq⟩ | ⟨_, fresh, eq⟩ | ⟨_, r, eq⟩ <;>
    rw [eq] at carried ⊢
  · exact valueSet_setValue stored
  · refine ⟨fun g => ?_, ?_, ?_, rfl⟩
    · rw [world_accepted, valueOf, valueOf, List.find?_append, List.find?_singleton,
        Fluent.sameKey_comm (w.spellFluent f)]
      by_cases asked : g.sameKey (w.spellFluent f) = true
      · -- the key is not among those before it
        have none_ : w.fluents.find? (·.sameKey g) = none := by
          rw [List.find?_eq_none]
          intro h mem same
          rw [hasFluent, List.any_eq_false] at fresh
          exact fresh h mem ((Fluent.sameKey_congr same _).trans asked)
        rw [none_, if_pos asked, if_pos asked]
        rfl
      · rw [if_neg asked, if_neg asked, Option.or_none]
    · rw [world_accepted, List.map_append]
      exact List.prefix_append _ _
    · rw [world_accepted, List.filter_append, List.filter_cons_of_neg, List.filter_nil,
        List.append_nil]
      simp [Fluent.sameKey_iff]
  · cases carried

theorem valueSet_updateFluent (f : Fluent) (carried : (w.updateFluent f).refusal = none) :
    ValueSet w (w.updateFluent f).world f := by
  rcases updateFluent_cases w f with ⟨_, stored, eq⟩ | ⟨_, r, eq⟩ <;> rw [eq] at carried ⊢
  · exact valueSet_setValue stored
  · cases carried

theorem Sound.valueRemoved (h : w.Sound) (f : Fluent)
    (carried : (w.removeFluent f).refusal = none) : ValueRemoved w (w.removeFluent f).world f := by
  rcases removeFluent_cases w f with ⟨_, eq⟩ | ⟨_, r, eq⟩ <;> rw [eq] at carried ⊢
  · have order : w.fluents.eraseP (·.sameKey (w.spellFluent f)) =
        w.fluents.filter fun g => !g.sameKey (w.spellFluent f) := by
      apply eraseP_eq_filter_of_apart
      refine h.fluents_distinct.imp fun {g k} differ => ?_
      rintro ⟨first, second⟩
      rw [Fluent.sameKey_congr first, Fluent.sameKey_comm, second] at differ
      cases differ
    refine ⟨fun g => ?_, order, rfl⟩
    rw [world_accepted, order, valueOf, valueOf, List.find?_filter]
    by_cases asked : g.sameKey (w.spellFluent f) = true
    · have none_ : w.fluents.find?
          (fun k => decide ((!k.sameKey (w.spellFluent f)) = true ∧ k.sameKey g = true)) = none := by
        rw [List.find?_eq_none]
        intro k _ both
        obtain ⟨other, same⟩ := of_decide_eq_true both
        rw [Fluent.sameKey_congr same, asked] at other
        cases other
      rw [if_pos asked, none_, Option.map_none]
    · rw [if_neg asked]
      congr 2
      funext k
      cases same : k.sameKey g with
      | false => simp
      | true => simp [Fluent.sameKey_congr same, asked]
  · cases carried

/-! ## Every run -/

/-- **Facts are a set and fluents a map**, in every world that a run reaches over any domain,
whatever was handed in: an operation on them that is carried out adds a fact or removes one,
sets the value at one key or removes it. -/
theorem lookups_run (d : Domain) (ms : List Mutation) :
    let w := (empty d).run ms
    (∀ l, (w.addFact l).refusal = none → FactAdded w (w.addFact l).world l) ∧
      (∀ l, (w.removeFact l).refusal = none → FactRemoved w (w.removeFact l).world l) ∧
      (∀ f, (w.addFluent f).refusal = none → ValueSet w (w.addFluent f).world f) ∧
      (∀ f, (w.updateFluent f).refusal = none → ValueSet w (w.updateFluent f).world f) ∧
      ∀ f, (w.removeFluent f).refusal = none → ValueRemoved w (w.removeFluent f).world f := by
  intro w
  have sound : w.Sound := sound_run d ms
  exact ⟨factAdded, sound.factRemoved, valueSet_addFluent, valueSet_updateFluent,
    sound.valueRemoved⟩

/-- A domain with one predicate and one function. -/
def levels : Domain :=
  ⟨"d", [], [("object", none)], [("clear", ["object"])], [("level", ["object"])], []⟩

/-- One of two objects is clear, and both have a level. -/
def levelled : List Mutation :=
  [.addObject ⟨"a", "object"⟩, .addObject ⟨"b", "object"⟩, .addFact (.positive "Clear" ["a"]),
    .addFluent (.ground "Level" ["a"] 1), .addFluent (.ground "level" ["b"] 2)]

/-- A fact is added and removed, and the value at one key is set, set again and removed, all
of it in capitals. -/
theorem lookups_run_levelled :
    let w := (empty levels).run levelled
    FactAdded w (w.addFact (.positive "CLEAR" ["b"])).world (.positive "CLEAR" ["b"]) ∧
      FactRemoved w (w.removeFact (.positive "CLEAR" ["a"])).world (.positive "CLEAR" ["a"]) ∧
      (w.addFluent (.ground "LEVEL" ["a"] 3)).world.valueOf (.ground "level" ["a"] 0) = some 3 ∧
      (w.updateFluent (.ground "LEVEL" ["a"] 3)).world.valueOf (.ground "level" ["b"] 0) =
        w.valueOf (.ground "level" ["b"] 0) ∧
      (w.removeFluent (.ground "LEVEL" ["a"] 3)).world.valueOf (.ground "level" ["a"] 0) = none := by
  intro w
  obtain ⟨addFact, removeFact, addFluent, updateFluent, removeFluent⟩ := lookups_run levels levelled
  refine ⟨addFact _ (by decide +kernel), removeFact _ (by decide +kernel), ?_, ?_, ?_⟩
  · exact ((addFluent _ (by decide +kernel)).value _).trans (if_pos (by decide +kernel))
  · exact ((updateFluent _ (by decide +kernel)).value _).trans (if_neg (by decide +kernel))
  · exact ((removeFluent _ (by decide +kernel)).value _).trans (if_pos (by decide +kernel))

end World

end WorldModel
