/-
Worlds under other types of arguments, and filling them again.

A world that is written and read comes back retyped. Its text says nothing of types
(`problemText_retype`), and whatever was stored once can be stored again, item by item and
in the same order, in a world that has the same objects: it is valid there, spelled, and
none of the items before it. So storing it changes one list, by one item at its end
(`addFact_next` and the like), and stages of this sort add up (`addItems_stages`).
-/
import WorldModel.Proofs.World.Imported

set_option autoImplicit false

namespace WorldModel

open Reader (TypeOf)

/-! ## Retyped worlds -/

/-- The formula with all atoms of its term retyped. -/
def Formula.retype (typeOf : TypeOf) (f : Formula) : Formula :=
  .ofTerm? (f.term?.map (Term.retype typeOf))

/-- The world with all its atoms retyped. -/
def World.retype (typeOf : TypeOf) (w : World) : World where
  domain := w.domain
  objects := w.objects
  facts := w.facts.map (Literal.retype typeOf)
  fluents := w.fluents.map (Fluent.retype typeOf)
  contingents := w.contingents.map (Formula.retype typeOf)
  goal := w.goal.retype typeOf

variable (typeOf : TypeOf)

theorem Formula.retype_of_term? {f : Formula} {t : Term} (h : f.term? = some t) :
    f.retype typeOf = .ofTerm (t.retype typeOf) := by
  rw [retype, h]
  rfl

theorem Formula.term?_retype (f : Formula) :
    (f.retype typeOf).term? = f.term?.map (Term.retype typeOf) :=
  term?_ofTerm? _

theorem Formula.render_retype (f : Formula) (casing : Casing) :
    (f.retype typeOf).render 0 casing = f.render 0 casing := by
  have term := f.term?_retype typeOf
  rw [term?, term?] at term
  rw [render, render, term]
  cases f.unfold 0 with
  | none => rfl
  | some t => exact t.text_retype typeOf casing

theorem Formula.isEmpty_retype (f : Formula) : (f.retype typeOf).isEmpty = f.isEmpty := by
  rw [Bool.eq_iff_iff, ← term?_eq_none_iff, ← term?_eq_none_iff, term?_retype,
    Option.map_eq_none_iff]

namespace World

/-- **Types are not written.** -/
theorem problemText_retype (w : World) (s : Settings) :
    (w.retype typeOf).problemText s = w.problemText s := by
  have objects : (w.retype typeOf).objectLines s = w.objectLines s := rfl
  have init : (w.retype typeOf).initLines s = w.initLines s := by
    simp only [initLines, retype, List.map_map, Function.comp_def, Literal.text_retype,
      Fluent.text_retype, Formula.render_retype]
  have goal : (w.retype typeOf).goalLine s = w.goalLine s := by
    simp only [goalLine, retype, Formula.isEmpty_retype, Formula.render_retype]
  unfold problemText
  rw [objects, init, goal]
  rfl

/-! ## Stages -/

/-- **Items that lead from one stage to the next** lead from the first to the last. -/
theorem addItems_stages {α : Type} (all : List α) (stage : List α → World) (item : α → ImportItem)
    (step : ∀ done a rest, all = done ++ a :: rest →
      ((stage done).addItem (item a)).world = stage (done ++ [a])) :
    (stage []).addItems (all.map item) = stage all := by
  -- by induction on what is still to be added
  suffices from_ : ∀ rest done, all = done ++ rest →
      (stage done).addItems (rest.map item) = stage all from from_ all [] rfl
  intro rest
  induction rest with
  | nil =>
    intro done eq
    rw [List.append_nil] at eq
    rw [eq]
    rfl
  | cons a rest ih =>
    intro done eq
    rw [List.map_cons, addItems, List.foldl_cons, ← addItems, step done a rest eq]
    exact ih (done ++ [a]) (by rw [eq, List.append_assoc, List.singleton_append])

/-! ## Items that were stored before -/

section Stored

variable {w v : World} {typeOf}

/-- What is valid in a world is valid in one with the same objects, retyped. -/
theorem validLiteral_retype_of_objects (domain : v.domain = w.domain)
    (objects : v.objects = w.objects) {l : Literal} (valid : w.validLiteral l = true) :
    v.validLiteral (l.retype typeOf) = true := by
  rw [validLiteral_retype]
  exact validLiteral_mono domain (keeps_of_objects objects _) valid

theorem validFluent_retype_of_objects (domain : v.domain = w.domain)
    (objects : v.objects = w.objects) {f : Fluent} (valid : w.validFluent f = true) :
    v.validFluent (f.retype typeOf) = true := by
  rw [validFluent_retype]
  exact validFluent_mono domain (keeps_of_objects objects _) valid

/-- **The next object** is new, since names are different. -/
theorem addObject_next (sound : w.Sound) (domain : v.domain = w.domain) {done rest : List Entity}
    {e : Entity} (objects : v.objects = done) (next : w.objects = done ++ e :: rest) :
    (v.addObject e).world = { v with objects := v.objects ++ [e] } := by
  have declared : v.domain.declares e.typeName = true := by
    rw [domain]
    exact sound.objects_declared e (by simp [next])
  have fresh : v.object? e.name = none := by
    have distinct := sound.objects_distinct
    rw [next, List.map_append, List.map_cons] at distinct
    refine List.find?_eq_none.2 fun o mem => ?_
    rw [objects] at mem
    have other := (List.nodup_append.1 distinct).2.2 o.name (List.mem_map_of_mem mem) e.name
      List.mem_cons_self
    simpa using other
  rw [addObject, declared, fresh]
  rfl

/-- **The next fact** is valid and none of those before it. -/
theorem addFact_next (sound : w.Sound) (domain : v.domain = w.domain)
    (objects : v.objects = w.objects) {done rest : List Literal} {l : Literal}
    (facts : v.facts = done.map (Literal.retype typeOf)) (next : w.facts = done ++ l :: rest) :
    (v.addFact (l.retype typeOf)).world =
      { v with facts := v.facts ++ [l.retype typeOf] } := by
  have mem : l ∈ w.facts := by simp [next]
  have spelled : v.spellLiteral (l.retype typeOf) = l.retype typeOf := by
    refine spellLiteral_of_spelled ?_
    rw [domain]
    exact sound.facts_spelled l mem
  -- facts are compared without their types, and in the other world this one was new
  have fresh : v.hasFact (l.retype typeOf) = false := by
    have distinct := sound.facts_distinct
    rw [next] at distinct
    rw [hasFact, spelled, facts, List.any_map, List.any_eq_false]
    intro m before
    have other := (List.pairwise_append.1 distinct).2.2 m before l List.mem_cons_self
    simp [other]
  rcases addFact_cases v (l.retype typeOf) with ⟨stored, _⟩ | ⟨_, _, eq⟩ | ⟨_, invalid, _⟩
  · rw [fresh] at stored
    cases stored
  · rw [eq, spelled]
    rfl
  · rw [validLiteral_retype_of_objects domain objects (sound.facts_valid l mem)] at invalid
    cases invalid

/-- **The next fluent** is valid, and its key is none of those before it. -/
theorem addFluent_next (sound : w.Sound) (domain : v.domain = w.domain)
    (objects : v.objects = w.objects) {done rest : List Fluent} {f : Fluent}
    (fluents : v.fluents = done.map (Fluent.retype typeOf)) (next : w.fluents = done ++ f :: rest) :
    (v.addFluent (f.retype typeOf)).world =
      { v with fluents := v.fluents ++ [f.retype typeOf] } := by
  have mem : f ∈ w.fluents := by simp [next]
  have spelled : v.spellFluent (f.retype typeOf) = f.retype typeOf := by
    refine spellFluent_of_spelled ?_
    rw [domain]
    exact sound.fluents_spelled f mem
  have fresh : v.hasFluent (f.retype typeOf) = false := by
    have distinct := sound.fluents_distinct
    rw [next] at distinct
    rw [hasFluent, spelled, fluents, List.any_map, List.any_eq_false]
    intro g before
    have other := (List.pairwise_append.1 distinct).2.2 g before f List.mem_cons_self
    simp [other]
  rcases addFluent_cases v (f.retype typeOf) with ⟨_, stored, _⟩ | ⟨_, _, eq⟩ | ⟨invalid, _⟩
  · rw [fresh] at stored
    cases stored
  · rw [eq, spelled]
    rfl
  · rw [validFluent_retype_of_objects domain objects (sound.fluents_valid f mem)] at invalid
    cases invalid

/-- **A contingent fact that stands** is stored as it is, unless an equal one is: it has a
proper shape, is valid, is spelled, and leaves a choice. -/
theorem addContingent_of_over {k : NodeKind} {ls : List Literal}
    (h : v.Over (.ofTerm (.flat k ls)) k ls) (several : k = .oneOf → ls.length ≠ 1)
    (fresh : v.contingents.any (·.equiv (.ofTerm (.flat k ls))) = false) :
    (v.addContingent (.ofTerm (.flat k ls))).world =
      { v with contingents := v.contingents ++ [.ofTerm (.flat k ls)] } := by
  have valid : v.validFormula (.ofTerm (.flat k ls)) = true := by
    rw [validFormula_of_term? (Formula.term?_ofTerm _)]
    exact h.termStands.valid
  have spelled : v.spellFormula (.ofTerm (.flat k ls)) = .ofTerm (.flat k ls) :=
    Formula.renameAtoms_ofTerm_eq_self h.termStands.spelled
  have other : v.hasContingent (.ofTerm (.flat k ls)) = false := by
    rw [hasContingent, spelled]
    exact fresh
  rw [addContingent, h.lists.shapeFault?_eq_none h.head]
  simp only [valid, spelled, other, Bool.not_true, Bool.false_eq_true, if_false]
  rw [store, h.lists.soleDisjunct?_eq_none several]
  rfl

/-- A contingent fact that stands does so retyped. -/
theorem over_retype (domain : v.domain = w.domain) (objects : v.objects = w.objects) {f : Formula}
    {k : NodeKind} {ls : List Literal} (h : w.Over f k ls) :
    v.Over (.ofTerm (.flat k (ls.map (Literal.retype typeOf)))) k
      (ls.map (Literal.retype typeOf)) := by
  refine ⟨Formula.lists_ofTerm _ _, ?_, ?_, ?_⟩
  · rw [List.length_map]
    exact h.head
  · rw [List.forall_mem_map]
    exact fun l mem => validLiteral_retype_of_objects domain objects (h.valid l mem)
  · rw [List.forall_mem_map, domain]
    exact h.spelled

/-- **The next contingent fact** stands and is none of those before it. -/
theorem addContingent_next (imported : w.Imported) (stand : w.ContingentsStand)
    (domain : v.domain = w.domain) (objects : v.objects = w.objects) {done rest : List Formula}
    {f : Formula} (contingents : v.contingents = done.map (Formula.retype typeOf))
    (next : w.contingents = done ++ f :: rest) :
    (v.addContingent (f.retype typeOf)).world =
      { v with contingents := v.contingents ++ [f.retype typeOf] } := by
  have mem : f ∈ w.contingents := by simp [next]
  obtain ⟨k, ls, lit, several⟩ := stand f mem
  have term := lit.lists.term?_eq lit.head.keyword?_ne_none
  have made : f.retype typeOf = .ofTerm (.flat k (ls.map (Literal.retype typeOf))) := by
    rw [Formula.retype_of_term? typeOf term, Term.retype_flat typeOf lit.head.keyword?_ne_none]
  -- types do not count when it is compared with the others
  have fresh : v.contingents.any (·.equiv (f.retype typeOf)) = false := by
    have distinct := imported.contingents_distinct
    rw [next] at distinct
    rw [contingents, List.any_map, List.any_eq_false]
    intro g before
    have other := (List.pairwise_append.1 distinct).2.2 g before f List.mem_cons_self
    obtain ⟨t, rfl, _⟩ := imported.contingents g (by simp [next, before])
    obtain ⟨u, rfl, _⟩ := imported.contingents f mem
    rw [Formula.equiv_ofTerm] at other
    rw [Function.comp_apply, Formula.retype_of_term? typeOf (Formula.term?_ofTerm t),
      Formula.retype_of_term? typeOf (Formula.term?_ofTerm u), Formula.equiv_ofTerm,
      Term.same_retype, other]
    exact Bool.false_ne_true
  rw [made] at fresh ⊢
  apply addContingent_of_over (over_retype domain objects lit) _ fresh
  intro oneOf
  rw [List.length_map]
  have count := several oneOf
  omega

end Stored

end World

end WorldModel
