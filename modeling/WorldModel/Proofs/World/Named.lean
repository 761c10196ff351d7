/-
The names in stored formulas.

A formula may be handed in with any spelling of the names in it, and is stored with the
domain's own. Of contingent facts and goals that have bare leaves more is known, but also
where something stands below an atom some of it remains: the check looks at all that would
be written of a formula (`Term.Shows`), and passes over the rest. So in every world that can
be reached all names that the goal shows are names of declared symbols, as the domain spells
them, and contingent facts have a proper shape and names that spelling does not change
(`formulasNamed_run`). Whether these are declared is another matter: a literal below another one
is never checked, and a one-of may be left over it.
-/
import WorldModel.Proofs.World.Goal

set_option autoImplicit false

namespace WorldModel

/-! ## What a term shows -/

namespace Term

/-- **All that the term shows** has the property: its top, and what stands below the top
unless that is an atom or a number. -/
inductive Shows (P : NodeKind → Prop) : Term → Prop
  | node {k : NodeKind} {cs : List Term} (top : P k)
      (below : k.keyword? ≠ none → ∀ c ∈ cs, Shows P c) : Shows P (.node k cs)

variable {P Q : NodeKind → Prop} {t : Term}

/-- What is shown is replaced with the rest. -/
theorem Shows.mapKinds {g : NodeKind → NodeKind} (h : t.Shows P) (image : ∀ k, P k → Q (g k))
    (leaves : ∀ k, (g k).keyword? = k.keyword?) : (t.mapKinds g).Shows Q := by
  induction h with
  | node top _ ih =>
    rw [mapKinds_node]
    refine .node (image _ top) fun word => List.forall_mem_map.2 fun c mem => ?_
    exact ih (by rwa [leaves] at word) c mem

/-- A bare term shows all there is to it. -/
theorem Shows.forall_kinds (h : t.Shows P) (bare : t.Bare) : ∀ k ∈ t.kinds, P k := by
  induction h with
  | @node k cs top _ ih =>
    obtain ⟨leaf, below⟩ := bare
    refine forall_kinds_node.2 ⟨top, fun c mem => ?_⟩
    have word : k.keyword? ≠ none := by
      intro none_
      rw [leaf none_] at mem
      cases mem
    exact ih word c mem (below c mem)

end Term

/-- The kind names a declared symbol as the domain does, if it names one. -/
def Domain.Names (d : Domain) : NodeKind → Prop
  | .predicate l => ∃ s, d.predicate? l.name = some s ∧ s.name = l.name
  | .function f => ∃ s, d.function? f.name = some s ∧ s.name = f.name
  | _ => True

/-- **A contingent fact in the domain's spelling**: it has a proper shape, and no name of its
literals is spelled another way. -/
structure Domain.Spells (d : Domain) (f : Formula) : Prop where
  shape : shapeFault? f = none
  literals : ∀ l ∈ f.literals, d.spellPredicate l.name = l.name

namespace World

variable {w v : World} {f : Formula} {t : Term}

/-- The empty formula shows nothing. -/
theorem shows_empty {P : NodeKind → Prop} :
    ∀ t, (Formula.empty).term? = some t → t.Shows P := by
  intro t shown
  cases shown

/-- **What is valid** in a term is all that it shows. -/
theorem shows_of_validTerm (valid : w.validTerm t = true) : t.Shows w.ValidKind := by
  induction t with
  | node k cs ih =>
    match k with
    | .predicate _ | .function _ => exact .node valid fun word => absurd rfl word
    | .number _ => exact .node trivial fun word => absurd rfl word
    | .and | .or | .oneOf | .expression _ | .update _ =>
      rw [validTerm, validTerms_eq, List.all_eq_true] at valid
      exact .node trivial fun _ c mem => ih c mem (valid c mem)
    | .not | .unknown =>
      rw [validTerm, validTerms_eq, Bool.and_eq_true, List.all_eq_true] at valid
      exact .node trivial fun _ c mem => ih c mem (valid.2 c mem)

/-- A valid atom names a declared symbol, and in the domain's spelling as the domain does. -/
theorem names_spellKind {k : NodeKind} (valid : w.ValidKind k) : w.domain.Names (w.spellKind k) := by
  match k with
  | .predicate l =>
    have spelled : w.validLiteral (w.spellLiteral l) = true := (validLiteral_spell w l).trans valid
    obtain ⟨s, declared, name, _⟩ :=
      stands_of_validLiteral spelled (Domain.spellPredicate_spell _ _)
    exact ⟨s, declared, name⟩
  | .function f =>
    have spelled : w.validFluent (w.spellFluent f) = true := (validFluent_spell w f).trans valid
    obtain ⟨s, declared, name, _⟩ := stands_of_validFluent spelled (Domain.spellFunction_spell _ _)
    exact ⟨s, declared, name⟩
  | .and | .or | .not | .unknown | .oneOf | .expression _ | .update _ | .number _ => trivial

/-! ## The invariant -/

/-- **Stored formulas carry the domain's names.** -/
structure FormulasNamed (w : World) : Prop where
  contingents : ∀ f ∈ w.contingents, w.domain.Spells f
  acyclic : w.goal.Acyclic
  named : ∀ t, w.goal.term? = some t → t.Shows w.domain.Names

namespace FormulasNamed

/-- No contingent fact is the empty formula. -/
theorem contingents_nonempty (h : w.FormulasNamed) : ∀ f ∈ w.contingents, f.isEmpty = false := by
  intro f mem
  obtain ⟨n, root, _⟩ := Formula.exists_root_of_shapeFault? (h.contingents f mem).shape
  rw [← Bool.not_eq_true, Formula.isEmpty_iff_root?, root]
  exact Option.some_ne_none n

/-- Objects, facts and fluents have no part in it. -/
theorem frame (h : w.FormulasNamed) (domain : v.domain = w.domain)
    (contingents : ∀ f ∈ v.contingents, f ∈ w.contingents) (goal : v.goal = w.goal) :
    v.FormulasNamed := by
  refine ⟨fun f mem => ?_, ?_, ?_⟩
  · rw [domain]
    exact h.contingents f (contingents f mem)
  · rw [goal]
    exact h.acyclic
  · rw [goal, domain]
    exact h.named

theorem addObject (h : w.FormulasNamed) (e : Entity) : (w.addObject e).world.FormulasNamed := by
  rcases addObject_cases w e with ⟨_, _, _, eq⟩ | ⟨_, _, eq⟩ | ⟨r, eq⟩ <;> rw [eq] <;>
    exact h.frame rfl (fun _ mem => mem) rfl

theorem addFact (h : w.FormulasNamed) (l : Literal) : (w.addFact l).world.FormulasNamed := by
  rcases addFact_cases w l with ⟨_, eq⟩ | ⟨_, _, eq⟩ | ⟨_, _, r, eq⟩ <;> rw [eq] <;>
    exact h.frame rfl (fun _ mem => mem) rfl

theorem removeFact (h : w.FormulasNamed) (l : Literal) : (w.removeFact l).world.FormulasNamed := by
  rcases removeFact_cases w l with ⟨_, eq⟩ | ⟨_, r, eq⟩ <;> rw [eq] <;>
    exact h.frame rfl (fun _ mem => mem) rfl

theorem addFluent (h : w.FormulasNamed) (f : Fluent) : (w.addFluent f).world.FormulasNamed := by
  rcases addFluent_cases w f with ⟨_, _, eq⟩ | ⟨_, _, eq⟩ | ⟨_, r, eq⟩ <;> rw [eq] <;>
    exact h.frame rfl (fun _ mem => mem) rfl

theorem updateFluent (h : w.FormulasNamed) (f : Fluent) :
    (w.updateFluent f).world.FormulasNamed := by
  rcases updateFluent_cases w f with ⟨_, _, eq⟩ | ⟨_, r, eq⟩ <;> rw [eq] <;>
    exact h.frame rfl (fun _ mem => mem) rfl

theorem removeFluent (h : w.FormulasNamed) (f : Fluent) :
    (w.removeFluent f).world.FormulasNamed := by
  rcases removeFluent_cases w f with ⟨_, eq⟩ | ⟨_, r, eq⟩ <;> rw [eq] <;>
    exact h.frame rfl (fun _ mem => mem) rfl

/-! ### Contingent facts -/

/-- A formula of a proper shape is a contingent fact once it is spelled. -/
theorem spells_spellFormula (shape : shapeFault? f = none) : w.domain.Spells (w.spellFormula f) := by
  refine ⟨?_, fun l mem => ?_⟩
  · rw [spellFormula, shapeFault?_renameAtoms, shape]
  · cases shown : (w.spellFormula f).term? with
    | none =>
      rw [Formula.term?] at shown
      simp [Formula.literals, Formula.literalsUnder, shown] at mem
    | some u =>
      -- each kind of the term is one of the formula, spelled
      rw [Formula.literals_of_term? shown, Term.mem_literals] at mem
      rw [term?_spellFormula] at shown
      obtain ⟨t, _, rfl⟩ := Option.map_eq_some_iff.1 shown
      rw [Term.kinds_mapKinds] at mem
      obtain ⟨k, _, eq⟩ := List.mem_map.1 mem
      cases k with
      | predicate m =>
        obtain rfl := NodeKind.predicate.inj eq
        exact Domain.spellPredicate_spell _ _
      | _ => cases eq

/-- A one-of over some of the literals is a contingent fact again. -/
theorem spells_oneOf {d : Domain} (h : d.Spells f) {ls : List Literal} (nonempty : ls ≠ [])
    (among : ls ⊆ f.literals) : d.Spells (.oneOf ls) := by
  have head : Heads .oneOf ls.length := .oneOf (by simpa using nonempty)
  refine ⟨(Formula.lists_oneOf ls).shapeFault?_eq_none head, fun l mem => ?_⟩
  rw [(Formula.lists_oneOf ls).literals_eq head] at mem
  exact h.literals l (among mem)

theorem store (h : w.FormulasNamed) (spells : w.domain.Spells f) :
    (w.store f).world.FormulasNamed := by
  rcases store_cases w f with ⟨l, _, eq⟩ | ⟨_, eq⟩ <;> rw [eq]
  · exact h.addFact l
  · exact ⟨List.forall_mem_append.2 ⟨h.contingents, List.forall_mem_singleton.2 spells⟩,
      h.acyclic, h.named⟩

theorem addContingent (h : w.FormulasNamed) (f : Formula) :
    (w.addContingent f).world.FormulasNamed := by
  rcases addContingent_cases w f with ⟨shape, _, _, eq⟩ | ⟨r, eq⟩ <;> rw [eq]
  · exact h.store (spells_spellFormula shape)
  · exact h

/-- **Settling** stores one-ofs over literals of contingent facts that were stored before. -/
theorem settle (h : w.FormulasNamed) (l : Literal) : (w.settle l).world.FormulasNamed := by
  rw [World.settle]
  refine (storeOneOfs_induction (I := fun v => v.domain = w.domain ∧ v.FormulasNamed)
    (fun v ls mem nonempty hv => ?_)
    (w := { w with contingents := w.contingents.filter fun f => (withoutDisjunct? l f).isNone })
    ⟨rfl, ?_⟩).2
  · obtain ⟨domain, named⟩ := hv
    obtain ⟨f, inside, left⟩ := List.mem_filterMap.1 mem
    have spells := spells_oneOf (h.contingents f inside) nonempty
      (ContingentsStand.literals_of_withoutDisjunct? left)
    exact ⟨(domain_store v _).trans domain, named.store (by rwa [domain])⟩
  · exact h.frame rfl (fun f mem => List.mem_of_mem_filter mem) rfl

theorem removeContingent (h : w.FormulasNamed) (f : Formula) :
    (w.removeContingent f).world.FormulasNamed := by
  have erased : FormulasNamed
      { w with contingents := w.contingents.eraseP (·.equiv (w.spellFormula f)) } :=
    h.frame rfl (fun g mem => List.mem_of_mem_eraseP mem) rfl
  rcases removeContingent_cases w f with ⟨_, r, eq⟩ | ⟨_, eq⟩ | ⟨l, _, _, eq⟩ | eq <;> rw [eq]
  · exact h
  · exact h
  · exact erased.settle l
  · exact erased

/-- What is kept of a contingent fact without an object is the fact itself, or a one-of over
some of its literals. -/
theorem spells_of_kept {d : Domain} (h : d.Spells f) {object : String} {g : Formula}
    (kept : pruneContingent object f = .kept g) : d.Spells g := by
  rw [pruneContingent] at kept
  split at kept
  · rwa [← Pruned.kept.inj kept]
  split at kept
  · split at kept
    · cases kept
    · cases kept
    · next nonempty _ =>
      rw [← Pruned.kept.inj kept]
      exact spells_oneOf h nonempty (List.filter_subset_self _)
  · cases kept

/-! ### The goal -/

/-- A goal that is set has passed the check, and is spelled after it. -/
theorem setGoal (h : w.FormulasNamed) (acyclic : f.Acyclic) : (w.setGoal f).world.FormulasNamed := by
  rcases setGoal_cases w f with ⟨valid, eq⟩ | ⟨_, r, eq⟩ <;> rw [eq]
  · refine ⟨h.contingents, Formula.acyclic_renameAtoms acyclic _ _, fun t shown => ?_⟩
    rw [world_accepted, term?_spellFormula] at shown
    obtain ⟨u, term, rfl⟩ := Option.map_eq_some_iff.1 shown
    rw [validFormula_of_term? term] at valid
    -- spelling turns atoms into atoms, so that the same parts are shown
    refine (shows_of_validTerm valid).mapKinds (fun _ => names_spellKind) fun k => ?_
    cases k <;> rfl
  · exact h

/-- **A pruned goal** is a conjunction or disjunction of parts that were there before. -/
theorem pruneGoal_named (h : w.FormulasNamed) {object : String}
    (names : w.goal.mentions object = true) :
    (pruneGoal w.goal object).Acyclic ∧
      ∀ t, (pruneGoal w.goal object).term? = some t → t.Shows w.domain.Names := by
  obtain ⟨n, root⟩ := Formula.exists_root_of_mentions names
  by_cases top : n.kind = .and ∨ n.kind = .or
  · have shown := h.named _ (Formula.term?_of_whole (Formula.whole_of_acyclic h.acyclic) root)
    obtain ⟨head, below⟩ := shown
    have word : n.kind.keyword? ≠ none := by
      rcases top with kind | kind <;> rw [kind] <;> simp [NodeKind.keyword?]
    rw [pruneGoal_of_junction root top]
    refine ⟨Formula.acyclic_junction _ _, fun t shown => ?_⟩
    rw [Formula.term?_junction_eq_some shown]
    exact .node head fun _ c mem => below word c (List.mem_of_mem_filter mem)
  · rw [pruneGoal_of_other root (not_or.1 top) names]
    exact ⟨Formula.acyclic_empty, shows_empty⟩

theorem withoutObject (h : w.FormulasNamed) (object : String) :
    (w.withoutObject object).FormulasNamed := by
  cases names : w.goal.mentions object with
  | false => exact h.frame rfl (fun _ mem => mem) (by simp [World.withoutObject, names])
  | true =>
    obtain ⟨acyclic, named⟩ := h.pruneGoal_named names
    have pruned : (w.withoutObject object).goal = pruneGoal w.goal object := by
      simp [World.withoutObject, names]
    refine ⟨h.contingents, ?_, ?_⟩ <;> rw [pruned]
    · exact acyclic
    · exact named

theorem removeObject (h : w.FormulasNamed) (object : String) :
    (w.removeObject object).1.FormulasNamed := by
  rw [World.removeObject]
  split
  · refine addFacts_induction (fun v l _ hv => hv.addFact l) ?_
    have without := h.withoutObject object
    refine ⟨fun g mem => ?_, without.acyclic, without.named⟩
    obtain ⟨f, stored, keeps⟩ := exists_kept_of_mem mem
    exact spells_of_kept (h.contingents f stored) keeps
  · exact h

end FormulasNamed

/-- **Stored formulas carry the domain's names** in every world that can be reached with
formulas without cycles, whatever stands below their leaves. -/
theorem kept_formulasNamed (d : Domain) : Kept d Formula.Acyclic FormulasNamed where
  empty := ⟨fun _ mem => absurd mem List.not_mem_nil, Formula.acyclic_empty, shows_empty⟩
  addObject e h := h.addObject e
  removeObject object h := h.removeObject object
  addFact l h := h.addFact l
  removeFact l h := h.removeFact l
  addFluent f h := h.addFluent f
  updateFluent f h := h.updateFluent f
  removeFluent f h := h.removeFluent f
  addContingent _ h := h.addContingent _
  removeContingent _ h := h.removeContingent _
  setGoal acyclic h := h.setGoal acyclic
  clearGoal h := ⟨h.contingents, Formula.acyclic_empty, shows_empty⟩

/-- The usual grammar hands over formulas without cycles. -/
theorem readerMakes_acyclic : ReaderMakes Formula.Acyclic :=
  fun _ _ _ read f mem => (Reader.bareLeaves_and_acyclic_of_problem read f mem).2

theorem formulasNamed_run (d : Domain) {ms : List Mutation}
    (takes : ∀ m ∈ ms, m.Takes d Formula.Acyclic) : ((empty d).run ms).FormulasNamed :=
  (kept_formulasNamed d).run readerMakes_acyclic takes

end World

end WorldModel
