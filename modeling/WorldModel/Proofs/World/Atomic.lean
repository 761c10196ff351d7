/-
A refused operation leaves the world as it was.

Nearly every operation checks all it has to check before it touches the world, so this
needs no more than the cases of the operation (`Outcome.Atomic`). The one exception is the
removal of an unknown fact. It takes the fact out, takes the settled literal out of the
one-ofs that list it, and then stores what is left of them, and a one-of with a single
literal left is stored as a fact, which is checked. So the removal can be refused halfway,
when that literal is not valid.

A literal of a stored contingent fact is valid when nothing stands below the leaves of the
formulas that were handed in; a literal below another one is listed with the others but
never checked. **Main statement.** `world_of_refused`: whatever was handed in before, a
refusal that changes the world is the removal of an unknown fact which leaves a one-of with
a single invalid literal, and even this one touches only facts and contingent facts; over
bare formulas there is no such refusal.
-/
import WorldModel.Proofs.World.Goal
import WorldModel.Proofs.World.Reply

set_option autoImplicit false

namespace WorldModel

namespace Outcome

/-- With a refusal comes the world as it was. -/
def Atomic (w : World) (o : Outcome) : Prop :=
  o.refusal.isSome = true → o.world = w

theorem atomic_accepted (w v : World) : Atomic w (World.accepted v) := by
  intro refused
  cases refused

theorem atomic_refused (w : World) (r : Refusal) : Atomic w (w.refused r) :=
  fun _ => rfl

end Outcome

namespace World

open Outcome (atomic_accepted atomic_refused)

/-! ## Checked before anything is touched -/

theorem atomic_addObject (w : World) (e : Entity) : (w.addObject e).Atomic w := by
  rcases addObject_cases w e with ⟨_, _, _, eq⟩ | ⟨_, _, eq⟩ | ⟨r, eq⟩ <;> rw [eq]
  · apply atomic_accepted
  · apply atomic_accepted
  · apply atomic_refused

theorem atomic_addFact (w : World) (l : Literal) : (w.addFact l).Atomic w := by
  rcases addFact_cases w l with ⟨_, eq⟩ | ⟨_, _, eq⟩ | ⟨_, _, r, eq⟩ <;> rw [eq]
  · apply atomic_accepted
  · apply atomic_accepted
  · apply atomic_refused

theorem atomic_removeFact (w : World) (l : Literal) : (w.removeFact l).Atomic w := by
  rcases removeFact_cases w l with ⟨_, eq⟩ | ⟨_, r, eq⟩ <;> rw [eq]
  · apply atomic_accepted
  · apply atomic_refused

theorem atomic_addFluent (w : World) (f : Fluent) : (w.addFluent f).Atomic w := by
  rcases addFluent_cases w f with ⟨_, _, eq⟩ | ⟨_, _, eq⟩ | ⟨_, r, eq⟩ <;> rw [eq]
  · apply atomic_accepted
  · apply atomic_accepted
  · apply atomic_refused

theorem atomic_updateFluent (w : World) (f : Fluent) : (w.updateFluent f).Atomic w := by
  rcases updateFluent_cases w f with ⟨_, _, eq⟩ | ⟨_, r, eq⟩ <;> rw [eq]
  · apply atomic_accepted
  · apply atomic_refused

theorem atomic_removeFluent (w : World) (f : Fluent) : (w.removeFluent f).Atomic w := by
  rcases removeFluent_cases w f with ⟨_, eq⟩ | ⟨_, r, eq⟩ <;> rw [eq]
  · apply atomic_accepted
  · apply atomic_refused

theorem atomic_setGoal (w : World) (f : Formula) : (w.setGoal f).Atomic w := by
  rcases setGoal_cases w f with ⟨_, eq⟩ | ⟨_, r, eq⟩ <;> rw [eq]
  · apply atomic_accepted
  · apply atomic_refused

/-- What is stored as a fact is all that is stored, so a refusal of it is one of a fact. -/
theorem atomic_store (w : World) (f : Formula) : (w.store f).Atomic w := by
  rcases store_cases w f with ⟨l, _, eq⟩ | ⟨_, eq⟩ <;> rw [eq]
  · apply atomic_addFact
  · apply atomic_accepted

theorem atomic_addContingent (w : World) (f : Formula) : (w.addContingent f).Atomic w := by
  rcases addContingent_cases w f with ⟨_, _, _, eq⟩ | ⟨r, eq⟩ <;> rw [eq]
  · apply atomic_store
  · apply atomic_refused

theorem atomic_addItem (w : World) (item : ImportItem) : (w.addItem item).Atomic w := by
  cases item with
  | object e => exact atomic_addObject w e
  | init f =>
    rw [addItem]
    rcases addInit_cases w f with ⟨l, _, eq⟩ | ⟨g, _, eq⟩ | eq | ⟨_, eq⟩ <;> rw [eq]
    · exact atomic_addFact w l
    · exact atomic_addFluent w g
    · exact atomic_addContingent w f
    · apply atomic_accepted
  | contingent f => exact atomic_addContingent w f
  | goal f => exact atomic_setGoal w f

/-! ## Settling an unknown fact -/

/-- **A one-of that cannot be stored** is one over a single literal, and that is invalid. -/
theorem exists_invalid_of_store {w : World} {ls : List Literal}
    (refused : (w.store (.oneOf ls)).refusal.isSome = true) :
    ∃ l, ls = [l] ∧ w.validLiteral l = false := by
  by_cases single : ls.length = 1
  · obtain ⟨l, rfl⟩ := List.length_eq_one_iff.1 single
    refine ⟨l, rfl, ?_⟩
    rw [store, (Formula.lists_oneOf [l]).soleDisjunct?_eq_some] at refused
    -- a single literal is stored as a fact
    rcases addFact_cases w l with ⟨_, eq⟩ | ⟨_, _, eq⟩ | ⟨_, invalid, _⟩
    · simp [eq, accepted] at refused
    · simp [eq, accepted] at refused
    · exact invalid
  · rw [store, (Formula.lists_oneOf ls).soleDisjunct?_eq_none fun _ => single] at refused
    simp [accepted] at refused

/-- When one-ofs are stored one by one, the first that is refused leaves a single invalid
literal; whether it is valid does not depend on those stored before. -/
theorem exists_invalid_of_storeOneOfs {w : World} {lists : List (List Literal)}
    (refused : (w.storeOneOfs lists).refusal.isSome = true) :
    ∃ l, [l] ∈ lists ∧ w.validLiteral l = false := by
  induction lists generalizing w with
  | nil => simp [storeOneOfs, accepted] at refused
  | cons ls lists ih =>
    by_cases nonempty : ls = []
    · rw [nonempty, storeOneOfs] at refused
      obtain ⟨l, mem, invalid⟩ := ih refused
      exact ⟨l, List.mem_cons_of_mem ls mem, invalid⟩
    · rw [storeOneOfs] at refused
      · cases stopped : (w.store (.oneOf ls)).refusal with
        | some r =>
          obtain ⟨l, rfl, invalid⟩ := exists_invalid_of_store (by rw [stopped]; rfl)
          exact ⟨l, List.mem_cons_self, invalid⟩
        | none =>
          simp only [stopped] at refused
          obtain ⟨l, mem, invalid⟩ := ih refused
          -- back to the world before this one-of was stored
          rw [validLiteral_congr (domain_store w _) (objects_store w _)] at invalid
          exact ⟨l, List.mem_cons_of_mem ls mem, invalid⟩
      · exact nonempty

/-- **Settling leaves an invalid literal alone**: the formula is an unknown fact, and some
stored one-of lists its literal and, besides it, a single other one that is not valid. -/
def LeavesInvalid (w : World) (f : Formula) : Prop :=
  ∃ l g m, (w.spellFormula f).rootTag? = some .unknown ∧
    (w.spellFormula f).literals.head? = some l ∧ g ∈ w.contingents ∧
    withoutDisjunct? l g = some [m] ∧ w.validLiteral m = false

/-- **A refused removal** of a contingent fact leaves the world as it was, or was stopped by
a literal that is left alone. -/
theorem removeContingent_of_refused {w : World} {f : Formula}
    (refused : (w.removeContingent f).refusal.isSome = true) :
    (w.removeContingent f).world = w ∨ w.LeavesInvalid f := by
  rcases removeContingent_cases w f with ⟨_, r, eq⟩ | ⟨_, eq⟩ | ⟨l, tag, first, eq⟩ | eq <;>
    rw [eq] at refused ⊢
  · exact .inl rfl
  · exact .inl rfl
  · right
    unfold settle at refused
    obtain ⟨m, mem, invalid⟩ := exists_invalid_of_storeOneOfs refused
    obtain ⟨g, inside, left⟩ := List.mem_filterMap.1 mem
    refine ⟨l, g, m, tag, first, List.mem_of_mem_eraseP inside, left, ?_⟩
    rw [← invalid]
    exact validLiteral_congr rfl rfl m
  · simp [accepted] at refused

theorem not_leavesInvalid {w : World} (h : ∀ g ∈ w.contingents, ∀ l ∈ g.literals,
    w.validLiteral l = true) (f : Formula) : ¬ w.LeavesInvalid f := by
  rintro ⟨l, g, m, _, _, mem, left, invalid⟩
  have listed : m ∈ g.literals :=
    ContingentsStand.literals_of_withoutDisjunct? left (List.mem_singleton_self m)
  rw [h g mem m listed] at invalid
  cases invalid

theorem ContingentsStand.valid {w : World} (h : w.ContingentsStand) :
    ∀ g ∈ w.contingents, ∀ l ∈ g.literals, w.validLiteral l = true := by
  intro g mem l listed
  obtain ⟨k, ls, lit, _⟩ := h g mem
  rw [lit.lists.literals_eq lit.head] at listed
  exact lit.valid l listed

/-! ## What the removal of a contingent fact does not touch -/

/-- The second world differs from the first in its facts and contingent facts at most. -/
def SameButFacts (w v : World) : Prop :=
  v.objects = w.objects ∧ v.fluents = w.fluents ∧ v.goal = w.goal

theorem sameButFacts_store {w v : World} (same : w.SameButFacts v) (f : Formula) :
    w.SameButFacts (v.store f).world := by
  rcases store_cases v f with ⟨l, _, eq⟩ | ⟨_, eq⟩ <;> rw [eq]
  · rcases addFact_cases v l with ⟨_, eq⟩ | ⟨_, _, eq⟩ | ⟨_, _, r, eq⟩ <;> rw [eq] <;> exact same
  · exact same

theorem sameButFacts_removeContingent (w : World) (f : Formula) :
    w.SameButFacts (w.removeContingent f).world := by
  have here : w.SameButFacts w := ⟨rfl, rfl, rfl⟩
  rcases removeContingent_cases w f with ⟨_, r, eq⟩ | ⟨_, eq⟩ | ⟨l, _, _, eq⟩ | eq <;> rw [eq]
  · exact here
  · exact here
  · unfold settle
    apply storeOneOfs_induction (I := w.SameButFacts)
    · intro v ls _ _ same
      exact sameButFacts_store same _
    · exact here
  · exact here

end World

/-! ## Every mutation -/

open World Outcome in
/-- **A refused mutation** leaves the world as it was, or is the removal of an unknown fact
that leaves an invalid literal alone. -/
theorem Mutation.apply_of_isError {w : World} {m : Mutation} (refused : (m.reply w).isError = true) :
    m.apply w = w ∨ ∃ f, m = .removeContingent f ∧ w.LeavesInvalid f := by
  have unread : ∀ g s, (importReply (w.importWith g s)).isError = true →
      w.afterImport (w.importWith g s) = w := by
    intro g s refused
    cases read : w.importWith g s with
    | ok p => simp [read, importReply, Reply.isError] at refused
    | error e => rfl
  cases m <;> simp only [Mutation.reply, Outcome.isError_reply] at refused
  case addObject e => exact .inl (atomic_addObject w e refused)
  case addFact l => exact .inl (atomic_addFact w l refused)
  case removeFact l => exact .inl (atomic_removeFact w l refused)
  case addFluent f => exact .inl (atomic_addFluent w f refused)
  case updateFluent f => exact .inl (atomic_updateFluent w f refused)
  case removeFluent f => exact .inl (atomic_removeFluent w f refused)
  case addContingent f => exact .inl (atomic_addContingent w f refused)
  case setGoal f => exact .inl (atomic_setGoal w f refused)
  case importProblem s => exact .inl (unread .standard s refused)
  case importWith g s => exact .inl (unread g s refused)
  case removeContingent f =>
    rcases removeContingent_of_refused refused with same | stuck
    · exact .inl same
    · exact .inr ⟨f, rfl, stuck⟩
  case removeObject object => cases refused
  case clearGoal => cases refused
  case clear => cases refused

namespace World

/-- **What a refusal leaves** of a world that a run has reached, whatever was handed in:
the world as it was, unless the removal of an unknown fact was stopped by an invalid
literal that is left of a one-of, and objects, fluents and goal even then. If nothing stands
below the leaves of the formulas of the run, then every refusal leaves the world as it
was. -/
theorem world_of_refused (d : Domain) (ms : List Mutation) (m : Mutation)
    (refused : (m.reply ((empty d).run ms)).isError = true) :
    let w := (empty d).run ms
    (m.apply w = w ∨ ∃ f, m = .removeContingent f ∧ w.LeavesInvalid f) ∧
      w.SameButFacts (m.apply w) ∧
      ((∀ n ∈ ms, n.Takes d Formula.BareLeaves) → m.apply w = w) := by
  intro w
  have cases := Mutation.apply_of_isError refused
  refine ⟨cases, ?_, fun bare => ?_⟩
  · rcases cases with same | ⟨f, rfl, _⟩
    · rw [same]
      exact ⟨rfl, rfl, rfl⟩
    · exact sameButFacts_removeContingent w f
  · have stand : w.ContingentsStand := (kept_contingentsStand d).run readerMakes_bareLeaves bare
    rcases cases with same | ⟨f, _, stuck⟩
    · exact same
    · exact absurd stuck (not_leavesInvalid stand.valid f)

/-- The one-of is stored already, under another spelling. -/
theorem world_of_refused_clearing :
    let w := (empty clearOnly).run clearing
    let again := Mutation.addContingent (.oneOf [.positive "clear" ["a"], .positive "CLEAR" ["b"],
      .positive "Clear" ["c"]])
    (again.reply w).isError = true ∧ again.apply w = w := by
  intro w again
  have refused : (again.reply w).isError = true := by decide +kernel
  refine ⟨refused, (world_of_refused clearOnly clearing again refused).2.2 fun m mem => ?_⟩
  exact (takes_clearing m mem).imp fun _ both => both.1

/-! ## A removal that is stopped halfway -/

/-- A one-of over a literal and a second one that has a third one below it. -/
def oneOfOver (l m below : Literal) : Formula :=
  .ofTerm (.node .oneOf [.node (.predicate l) [], .node (.predicate m) [.node (.predicate below) []]])

/-- Clear or clear, over something that the domain does not know, and an unknown fact that
settles both. -/
def haunted : List Mutation :=
  [.addObject ⟨"a", "object"⟩,
    .addContingent (oneOfOver (.positive "clear" ["a"]) (.positive "clear" ["a"])
      (.positive "Ghost" ["a"])),
    .addContingent (.unknown (.positive "clear" ["a"]))]

/-- **A refusal that changes the world**: both contingent facts are gone when the literal
that is left turns out to be none of the domain. No formula that is handed in has a
cycle. -/
theorem exists_refused_and_changed :
    ∃ ms m, (∀ n ∈ m :: ms, n.Takes clearOnly Formula.Acyclic) ∧
      (m.reply ((empty clearOnly).run ms)).isError = true ∧
      m.apply ((empty clearOnly).run ms) ≠ (empty clearOnly).run ms := by
  have acyclic : (Formula.unknown (.positive "clear" ["a"])).Acyclic := Formula.acyclic_ofTerm _
  refine ⟨haunted, .removeContingent (.unknown (.positive "clear" ["a"])), ?_, by decide +kernel,
    fun same => ?_⟩
  · simp only [haunted, List.forall_mem_cons]
    exact ⟨acyclic, trivial, Formula.acyclic_ofTerm _, acyclic, by simp⟩
  · have count := congrArg (fun w : World => w.contingents.length) same
    revert count
    decide +kernel

end World

end WorldModel
