/-
What a world keeps of its objects, facts and fluents.

**Main statement.** `store_sound`: in every world that a run reaches, objects have
different names and declared types, every fact and fluent is spelled as the domain
spells it and fits its signature with objects that are there, and none of them is stored
twice.

The invariant (`Sound`) is kept by each operation, and most of them touch one of the
three lists only. What ties the lists together is that an atom is valid in a world with
more objects (`Keeps`), and that the removal of an object takes every atom along that
names it. Storing a fact is the only way in, also for the facts that one-ofs leave
behind, so what is checked and spelled there is checked and spelled of all of them.
-/
import WorldModel.Proofs.World.Run

set_option autoImplicit false

namespace WorldModel.World

/-! ## The invariant -/

/-- **Soundness** of what a world stores about its objects. -/
structure Sound (w : World) : Prop where
  objects_distinct : (w.objects.map (·.name)).Nodup
  objects_declared : ∀ e ∈ w.objects, w.domain.declares e.typeName = true
  facts_valid : ∀ l ∈ w.facts, w.validLiteral l = true
  facts_spelled : ∀ l ∈ w.facts, w.domain.spellPredicate l.name = l.name
  facts_distinct : w.facts.Pairwise fun l m => l.sameFact m = false
  fluents_valid : ∀ f ∈ w.fluents, w.validFluent f = true
  fluents_spelled : ∀ f ∈ w.fluents, w.domain.spellFunction f.name = f.name
  fluents_distinct : w.fluents.Pairwise fun f g => f.sameKey g = false

theorem sound_empty (d : Domain) : (empty d).Sound := by
  constructor <;> simp [empty]

/-- **Where no two entries fit**, taking out the first that fits leaves out all that do. -/
theorem eraseP_eq_filter_of_apart {α : Type} {fits : α → Bool} {entries : List α}
    (apart : entries.Pairwise fun a b => ¬ (fits a = true ∧ fits b = true)) :
    entries.eraseP fits = entries.filter fun a => !fits a := by
  induction entries with
  | nil => rfl
  | cons a entries ih =>
    obtain ⟨first, later⟩ := List.pairwise_cons.1 apart
    by_cases here : fits a = true
    · rw [List.eraseP_cons_of_pos here, List.filter_cons_of_neg (by simp [here])]
      refine (List.filter_eq_self.2 fun b mem => ?_).symm
      have other : fits b = false := by
        rw [← Bool.not_eq_true]
        exact fun there => first b mem ⟨here, there⟩
      rw [other, Bool.not_false]
    · rw [List.eraseP_cons_of_neg here, List.filter_cons_of_pos (by simpa using here), ih later]

namespace Sound

variable {w : World}

/-- Contingent facts and the goal have no part in it. -/
theorem frame {v : World} (h : w.Sound) (domain : v.domain = w.domain)
    (objects : v.objects = w.objects) (facts : v.facts = w.facts) (fluents : v.fluents = w.fluents) :
    v.Sound := by
  obtain ⟨d, es, ls, fs, cs, g⟩ := v
  obtain ⟨d', es', ls', fs', cs', g'⟩ := w
  cases domain
  cases objects
  cases facts
  cases fluents
  exact ⟨h.objects_distinct, h.objects_declared, h.facts_valid, h.facts_spelled, h.facts_distinct,
    h.fluents_valid, h.fluents_spelled, h.fluents_distinct⟩

/-! ## Objects -/

/-- A new object has a new name, and all atoms stay valid. -/
theorem addObject (h : w.Sound) (e : Entity) : (w.addObject e).world.Sound := by
  rcases addObject_cases w e with ⟨_, _, _, eq⟩ | ⟨fresh, declared, eq⟩ | ⟨r, eq⟩ <;> rw [eq]
  · exact h
  · have other : ∀ old ∈ w.objects, old.name ≠ e.name := by
      intro old mem
      simpa using List.find?_eq_none.1 fresh old mem
    refine ⟨?_, ?_, ?_, h.facts_spelled, h.facts_distinct, ?_, h.fluents_spelled,
      h.fluents_distinct⟩
    · -- the new name is none of those before it
      simp only [world_accepted, List.map_append, List.map_cons, List.map_nil]
      refine List.nodup_append.2 ⟨h.objects_distinct, by simp, ?_⟩
      intro name mem last single same
      obtain ⟨old, inside, rfl⟩ := List.mem_map.1 mem
      exact other old inside (same.trans (List.mem_singleton.1 single))
    · intro old mem
      rcases List.mem_append.1 mem with mem | mem
      · exact h.objects_declared old mem
      · rw [List.mem_singleton.1 mem]
        exact declared
    · intro l mem
      exact validLiteral_mono (w := w) rfl (keeps_append w [e] l.args) (h.facts_valid l mem)
    · intro f mem
      exact validFluent_mono (w := w) rfl (keeps_append w [e] f.args) (h.fluents_valid f mem)
  · exact h

/-! ## Facts -/

/-- **A new fact** is spelled before it is compared, and compared before it is stored. -/
theorem addFact (h : w.Sound) (l : Literal) : (w.addFact l).world.Sound := by
  rcases addFact_cases w l with ⟨_, eq⟩ | ⟨fresh, valid, eq⟩ | ⟨_, _, r, eq⟩ <;> rw [eq]
  · exact h
  · rw [hasFact, List.any_eq_false] at fresh
    refine ⟨h.objects_distinct, h.objects_declared, ?_, ?_, ?_, h.fluents_valid, h.fluents_spelled,
      h.fluents_distinct⟩
    · intro m mem
      rcases List.mem_append.1 mem with mem | mem
      · exact h.facts_valid m mem
      · rw [List.mem_singleton.1 mem]
        exact (validLiteral_spell w l).trans valid
    · intro m mem
      rcases List.mem_append.1 mem with mem | mem
      · exact h.facts_spelled m mem
      · rw [List.mem_singleton.1 mem]
        exact Domain.spellPredicate_spell _ _
    · refine List.pairwise_append.2 ⟨h.facts_distinct, List.pairwise_singleton _ _, ?_⟩
      intro m mem last single
      rw [List.mem_singleton.1 single]
      simpa using fresh m mem
  · exact h

/-- Fewer facts are sound as well. -/
theorem removeFact (h : w.Sound) (l : Literal) : (w.removeFact l).world.Sound := by
  rcases removeFact_cases w l with ⟨_, eq⟩ | ⟨_, r, eq⟩ <;> rw [eq]
  · exact ⟨h.objects_distinct, h.objects_declared,
      fun m mem => h.facts_valid m (List.mem_of_mem_eraseP mem),
      fun m mem => h.facts_spelled m (List.mem_of_mem_eraseP mem),
      h.facts_distinct.sublist List.eraseP_sublist, h.fluents_valid, h.fluents_spelled,
      h.fluents_distinct⟩
  · exact h

/-! ## Fluents -/

/-- What holds of the names and arguments of fluents holds of them with a new value. -/
theorem forall_mem_setValue {P : String × List Argument → Prop} (f : Fluent) {gs : List Fluent}
    (h : ∀ g ∈ gs, P (g.name, g.args)) : ∀ g ∈ setValue f gs, P (g.name, g.args) := by
  have keys : ∀ p ∈ (setValue f gs).map (fun g => (g.name, g.args)), P p := by
    rw [map_key_setValue]
    exact List.forall_mem_map.2 h
  exact List.forall_mem_map.1 keys

/-- What holds between the names and arguments of fluents holds with a new value. -/
theorem pairwise_setValue {R : String × List Argument → String × List Argument → Prop} (f : Fluent)
    {gs : List Fluent} (h : gs.Pairwise fun g k => R (g.name, g.args) (k.name, k.args)) :
    (setValue f gs).Pairwise fun g k => R (g.name, g.args) (k.name, k.args) := by
  have keys : ((setValue f gs).map fun g => (g.name, g.args)).Pairwise R := by
    rw [map_key_setValue]
    exact List.pairwise_map.2 h
  exact List.pairwise_map.1 keys

/-- A new value does not bear on soundness. -/
theorem setValue (h : w.Sound) (f : Fluent) :
    Sound { w with fluents := World.setValue f w.fluents } :=
  ⟨h.objects_distinct, h.objects_declared, h.facts_valid, h.facts_spelled, h.facts_distinct,
    forall_mem_setValue (P := fun p => w.validFluent ⟨p.1, p.2, 0⟩ = true) f h.fluents_valid,
    forall_mem_setValue (P := fun p => w.domain.spellFunction p.1 = p.1) f h.fluents_spelled,
    pairwise_setValue (R := fun p q => (p.1 == q.1 && sameArguments p.2 q.2) = false) f
      h.fluents_distinct⟩

theorem updateFluent (h : w.Sound) (f : Fluent) : (w.updateFluent f).world.Sound := by
  rcases updateFluent_cases w f with ⟨_, _, eq⟩ | ⟨_, r, eq⟩ <;> rw [eq]
  · exact h.setValue _
  · exact h

/-- **A new fluent** is spelled before it is compared, and compared before it is
stored. -/
theorem addFluent (h : w.Sound) (f : Fluent) : (w.addFluent f).world.Sound := by
  rcases addFluent_cases w f with ⟨_, _, eq⟩ | ⟨valid, fresh, eq⟩ | ⟨_, r, eq⟩ <;> rw [eq]
  · -- a fluent of this key is there, and only its value changes
    exact h.setValue _
  · rw [hasFluent, List.any_eq_false] at fresh
    refine ⟨h.objects_distinct, h.objects_declared, h.facts_valid, h.facts_spelled,
      h.facts_distinct, ?_, ?_, ?_⟩
    · intro g mem
      rcases List.mem_append.1 mem with mem | mem
      · exact h.fluents_valid g mem
      · rw [List.mem_singleton.1 mem]
        exact (validFluent_spell w f).trans valid
    · intro g mem
      rcases List.mem_append.1 mem with mem | mem
      · exact h.fluents_spelled g mem
      · rw [List.mem_singleton.1 mem]
        exact Domain.spellFunction_spell _ _
    · refine List.pairwise_append.2 ⟨h.fluents_distinct, List.pairwise_singleton _ _, ?_⟩
      intro g mem last single
      rw [List.mem_singleton.1 single]
      simpa using fresh g mem
  · exact h

/-- Fewer fluents are sound as well. -/
theorem removeFluent (h : w.Sound) (f : Fluent) : (w.removeFluent f).world.Sound := by
  rcases removeFluent_cases w f with ⟨_, eq⟩ | ⟨_, r, eq⟩ <;> rw [eq]
  · exact ⟨h.objects_distinct, h.objects_declared, h.facts_valid, h.facts_spelled,
      h.facts_distinct, fun g mem => h.fluents_valid g (List.mem_of_mem_eraseP mem),
      fun g mem => h.fluents_spelled g (List.mem_of_mem_eraseP mem),
      h.fluents_distinct.sublist List.eraseP_sublist⟩
  · exact h

/-! ## Contingent facts -/

theorem store (h : w.Sound) (f : Formula) : (w.store f).world.Sound := by
  rcases store_cases w f with ⟨l, _, eq⟩ | ⟨_, eq⟩ <;> rw [eq]
  · exact h.addFact l
  · exact h.frame rfl rfl rfl rfl

theorem addContingent (h : w.Sound) (f : Formula) : (w.addContingent f).world.Sound := by
  rcases addContingent_cases w f with ⟨_, _, _, eq⟩ | ⟨r, eq⟩ <;> rw [eq]
  · exact h.store _
  · exact h

theorem settle (h : w.Sound) (l : Literal) : (w.settle l).world.Sound := by
  rw [World.settle]
  exact storeOneOfs_induction (fun v ls _ _ hv => hv.store _) (h.frame rfl rfl rfl rfl)

/-- Removing a contingent fact may settle one. -/
theorem removeContingent (h : w.Sound) (f : Formula) : (w.removeContingent f).world.Sound := by
  rcases removeContingent_cases w f with ⟨_, r, eq⟩ | ⟨_, eq⟩ | ⟨l, _, _, eq⟩ | eq <;> rw [eq]
  · exact h
  · exact h
  · refine settle ?_ l
    exact h.frame rfl rfl rfl rfl
  · exact h.frame rfl rfl rfl rfl

/-! ## Goals -/

theorem setGoal (h : w.Sound) (f : Formula) : (w.setGoal f).world.Sound := by
  rcases setGoal_cases w f with ⟨_, eq⟩ | ⟨_, r, eq⟩ <;> rw [eq]
  · exact h.frame rfl rfl rfl rfl
  · exact h

/-! ## Removing an object -/

/-- **Without an object** and the atoms that name it all others stay valid. -/
theorem withoutObject (h : w.Sound) (object : String) : (w.withoutObject object).Sound := by
  refine ⟨?_, ?_, ?_, ?_, ?_, ?_, ?_, ?_⟩
  · exact h.objects_distinct.sublist (List.eraseP_sublist.map _)
  · exact fun e mem => h.objects_declared e (List.mem_of_mem_eraseP mem)
  · intro l mem
    obtain ⟨mem, silent⟩ := List.mem_filter.1 mem
    have silent : l.mentions object = false := by simpa using silent
    exact validLiteral_mono (w := w) rfl (keeps_eraseP silent) (h.facts_valid l mem)
  · exact fun l mem => h.facts_spelled l (List.mem_of_mem_filter mem)
  · exact h.facts_distinct.filter _
  · intro f mem
    obtain ⟨mem, silent⟩ := List.mem_filter.1 mem
    have silent : f.mentions object = false := by simpa using silent
    exact validFluent_mono (w := w) rfl (keeps_eraseP silent) (h.fluents_valid f mem)
  · exact fun f mem => h.fluents_spelled f (List.mem_of_mem_filter mem)
  · exact h.fluents_distinct.filter _

/-- What one-ofs leave behind comes in as facts do. -/
theorem removeObject (h : w.Sound) (object : String) : (w.removeObject object).1.Sound := by
  rw [World.removeObject]
  split
  · refine addFacts_induction (fun v l _ hv => hv.addFact l) ?_
    exact (h.withoutObject object).frame rfl rfl rfl rfl
  · exact h

end Sound

/-! ## Every run -/

/-- Soundness is kept by all operations, whatever formulas they are handed. -/
theorem kept_sound (d : Domain) : Kept d (fun _ => True) Sound where
  empty := sound_empty d
  addObject e h := h.addObject e
  removeObject object h := h.removeObject object
  addFact l h := h.addFact l
  removeFact l h := h.removeFact l
  addFluent f h := h.addFluent f
  updateFluent f h := h.updateFluent f
  removeFluent f h := h.removeFluent f
  addContingent _ h := h.addContingent _
  removeContingent _ h := h.removeContingent _
  setGoal _ h := h.setGoal _
  clearGoal h := h.frame rfl rfl rfl rfl

theorem takes_true (d : Domain) (m : Mutation) : m.Takes d fun _ => True := by
  cases m <;> simp [Mutation.Takes]

/-- Every world that a run reaches is sound. -/
theorem sound_run (d : Domain) (ms : List Mutation) : ((empty d).run ms).Sound :=
  (kept_sound d).run (fun _ _ _ _ _ _ => trivial) fun m _ => takes_true d m

/-- The arguments are as many as the positions of the signature, and each of them names
a stored object whose type its position accepts. -/
def ArgumentsStand (w : World) (s : Signature) (as : List Argument) : Prop :=
  List.Forall₂ (fun slot a => ∃ e ∈ w.objects, e.name = a.name ∧ slot.accepts e.typeName = true)
    s.slots as

theorem argumentsStand_of_fit {w : World} {s : Signature} {as : List Argument}
    (fit : w.argumentsFit s as = true) : w.ArgumentsStand s as :=
  (argumentsFit_iff.1 fit).imp fun _ _ ⟨e, found, accepted⟩ =>
    ⟨e, (mem_of_object? found).1, (mem_of_object? found).2, accepted⟩

/-- A valid literal in the domain's spelling carries the name of its signature, and its
arguments stand for objects. -/
theorem stands_of_validLiteral {w : World} {l : Literal} (valid : w.validLiteral l = true)
    (spelled : w.domain.spellPredicate l.name = l.name) :
    ∃ s, w.domain.predicate? l.name = some s ∧ s.name = l.name ∧ w.ArgumentsStand s l.args := by
  rw [validLiteral] at valid
  split at valid
  · next s declared =>
    exact ⟨s, declared, Domain.name_of_predicate? declared spelled, argumentsStand_of_fit valid⟩
  · cases valid

/-- The same of fluents. -/
theorem stands_of_validFluent {w : World} {f : Fluent} (valid : w.validFluent f = true)
    (spelled : w.domain.spellFunction f.name = f.name) :
    ∃ s, w.domain.function? f.name = some s ∧ s.name = f.name ∧ w.ArgumentsStand s f.args := by
  rw [validFluent] at valid
  split at valid
  · next s declared =>
    exact ⟨s, declared, Domain.name_of_function? declared spelled, argumentsStand_of_fit valid⟩
  · cases valid

/-- **What every run keeps** of objects, facts and fluents, over any domain and whatever
is handed in: names of objects are different and their types declared; each fact and
each fluent carries the domain's spelling of its name, has as many arguments as its
signature has positions, and each argument names a stored object that the position
accepts; no two facts are the same, and no two fluents have the same key. -/
theorem store_sound (d : Domain) (ms : List Mutation) :
    let w := (empty d).run ms
    ((w.objects.map (·.name)).Nodup ∧ ∀ e ∈ w.objects, d.declares e.typeName = true) ∧
      (∀ l ∈ w.facts, ∃ s, d.predicate? l.name = some s ∧ s.name = l.name ∧
        w.ArgumentsStand s l.args) ∧
      (∀ f ∈ w.fluents, ∃ s, d.function? f.name = some s ∧ s.name = f.name ∧
        w.ArgumentsStand s f.args) ∧
      (w.facts.Pairwise fun l m => l.sameFact m = false) ∧
      w.fluents.Pairwise fun f g => f.sameKey g = false := by
  intro w
  have sound : w.Sound := sound_run d ms
  have domain : w.domain = d := domain_run (empty d) ms
  refine ⟨⟨sound.objects_distinct, ?_⟩, ?_, ?_, sound.facts_distinct, sound.fluents_distinct⟩
  · intro e mem
    rw [← domain]
    exact sound.objects_declared e mem
  · intro l mem
    rw [← domain]
    exact stands_of_validLiteral (sound.facts_valid l mem) (sound.facts_spelled l mem)
  · intro f mem
    rw [← domain]
    exact stands_of_validFluent (sound.fluents_valid f mem) (sound.fluents_spelled f mem)

end WorldModel.World
