/-
Which contingent facts can be stored twice.

A contingent fact is compared with those that are stored when it is added, and only then.
Two operations store one-ofs without comparing them: the removal of an object takes the
literals that name it out of every one-of, and the removal of an unknown fact takes out
those that state it. What is left of a one-of may equal one that is stored, or what is left
of another one.

**Main statement.** `equiv_contingents_run`: nothing else is stored twice. Of two stored
entries that match, both are one-ofs, and one of the two is what such a removal has left and
has been stored ever since (`Shortened`). Runs without such removals store nothing twice.
That removals do is `exists_run_storing_twice`.
-/
import WorldModel.Proofs.World.Cascade

set_option autoImplicit false

namespace WorldModel

/-! ## Formulas that match -/

theorem NodeKind.tag_of_same {k l : NodeKind} (same : k.same l = true) : k.tag = l.tag := by
  cases k <;> cases l <;> first | rfl | simp [NodeKind.same, NodeKind.tag] at same

/-- Formulas that match have roots of one tag. -/
theorem Formula.rootTag?_of_equiv {f g : Formula} (same : f.equiv g = true) :
    f.rootTag? = g.rootTag? := by
  rw [equiv, Bool.or_eq_true, Bool.and_eq_true] at same
  rcases same with ⟨left, right⟩ | below
  · rw [rootTag?, rootTag?, isEmpty_iff_root?.1 left, isEmpty_iff_root?.1 right]
  · rw [equivAt] at below
    -- the tops of what the roots unfold to are the roots
    simp only [unfoldWithin] at below
    cases left : f.node? 0 with
    | none => simp [left] at below
    | some n =>
      cases right : g.node? 0 with
      | none => simp [left, right] at below
      | some m =>
        simp only [left, right, Option.map_some, Term.same, Bool.and_eq_true] at below
        rw [rootTag?, rootTag?, root?, root?, left, right]
        exact congrArg some (NodeKind.tag_of_same below.1)

/-! ## One-ofs that removals leave -/

/-- **The mutation leaves the literals** of a stored one-of: they are those that do not name
the object that is removed, or those that do not state the unknown fact that is. -/
inductive Mutation.Leaves (w : World) : Mutation → List Literal → Prop
  | object {object : String} {f : Formula} (known : w.objects.any (·.name == object) = true)
      (stored : f ∈ w.contingents) (oneOf : f.rootTag? = some .oneOf)
      (names : f.mentions object = true) : Leaves w (.removeObject object) (disjunctsLeft object f)
  | settled {g f : Formula} {l : Literal} {ls : List Literal} (known : w.hasContingent g = true)
      (unknown : (w.spellFormula g).rootTag? = some .unknown)
      (first : (w.spellFormula g).literals.head? = some l) (stored : f ∈ w.contingents)
      (left : World.withoutDisjunct? l f = some ls) : Leaves w (.removeContingent g) ls

/-- **The formula is what a removal has left** of a stored one-of, two literals at least: the
last mutation of the run did, or an earlier one and it has been stored ever since. -/
inductive Shortened (d : Domain) : List Mutation → Formula → Prop
  | now {ms : List Mutation} {m : Mutation} {ls : List Literal} :
      m.Leaves ((World.empty d).run ms) ls → 2 ≤ ls.length → Shortened d (ms ++ [m]) (.oneOf ls)
  | since {ms : List Mutation} {m : Mutation} {f : Formula} :
      Shortened d ms f → f ∈ ((World.empty d).run (ms ++ [m])).contingents →
      Shortened d (ms ++ [m]) f

theorem Shortened.rootTag?_eq {d : Domain} {ms : List Mutation} {f : Formula}
    (h : Shortened d ms f) : f.rootTag? = some .oneOf := by
  induction h with
  | now _ _ => exact (Formula.lists_oneOf _).rootTag?_eq
  | since _ _ ih => exact ih

namespace World

variable {w v : World} {P : Formula → Prop}

/-! ## Operations that store no contingent facts -/

@[simp] theorem contingents_addObject (w : World) (e : Entity) :
    (w.addObject e).world.contingents = w.contingents := by
  rcases addObject_cases w e with ⟨_, _, _, eq⟩ | ⟨_, _, eq⟩ | ⟨r, eq⟩ <;> rw [eq] <;> rfl

@[simp] theorem contingents_addFact (w : World) (l : Literal) :
    (w.addFact l).world.contingents = w.contingents := by
  rcases addFact_cases w l with ⟨_, eq⟩ | ⟨_, _, eq⟩ | ⟨_, _, r, eq⟩ <;> rw [eq] <;> rfl

@[simp] theorem contingents_removeFact (w : World) (l : Literal) :
    (w.removeFact l).world.contingents = w.contingents := by
  rcases removeFact_cases w l with ⟨_, eq⟩ | ⟨_, r, eq⟩ <;> rw [eq] <;> rfl

@[simp] theorem contingents_addFluent (w : World) (f : Fluent) :
    (w.addFluent f).world.contingents = w.contingents := by
  rcases addFluent_cases w f with ⟨_, _, eq⟩ | ⟨_, _, eq⟩ | ⟨_, r, eq⟩ <;> rw [eq] <;> rfl

@[simp] theorem contingents_updateFluent (w : World) (f : Fluent) :
    (w.updateFluent f).world.contingents = w.contingents := by
  rcases updateFluent_cases w f with ⟨_, _, eq⟩ | ⟨_, r, eq⟩ <;> rw [eq] <;> rfl

@[simp] theorem contingents_removeFluent (w : World) (f : Fluent) :
    (w.removeFluent f).world.contingents = w.contingents := by
  rcases removeFluent_cases w f with ⟨_, eq⟩ | ⟨_, r, eq⟩ <;> rw [eq] <;> rfl

@[simp] theorem contingents_setGoal (w : World) (f : Formula) :
    (w.setGoal f).world.contingents = w.contingents := by
  rcases setGoal_cases w f with ⟨_, eq⟩ | ⟨_, r, eq⟩ <;> rw [eq] <;> rfl

@[simp] theorem contingents_addFacts (w : World) (ls : List Literal) :
    (w.addFacts ls).contingents = w.contingents :=
  addFacts_induction (I := fun v => v.contingents = w.contingents)
    (fun v l _ same => (contingents_addFact v l).trans same) rfl

/-! ## Entries that match -/

/-- **Of two stored entries that match** one at least has the property. -/
def Apart (P : Formula → Prop) (w : World) : Prop :=
  w.contingents.Pairwise fun f g => f.equiv g = true → P f ∨ P g

namespace Apart

theorem frame (h : w.Apart P) (same : v.contingents = w.contingents) : v.Apart P := by
  rw [Apart, same]
  exact h

theorem mono {Q : Formula → Prop} (h : w.Apart P) (wider : ∀ f ∈ w.contingents, P f → Q f) :
    w.Apart Q :=
  List.Pairwise.imp_of_mem (fun inF inG either equal =>
    (either equal).imp (wider _ inF) (wider _ inG)) h

/-- **A formula that has been compared** is stored, if it is, apart from all others. -/
theorem addContingent (h : w.Apart P) (f : Formula) : (w.addContingent f).world.Apart P := by
  rcases addContingent_cases w f with ⟨_, _, fresh, eq⟩ | ⟨r, eq⟩ <;> rw [eq]
  · rcases store_cases w (w.spellFormula f) with ⟨l, _, eq⟩ | ⟨_, eq⟩ <;> rw [eq]
    · exact h.frame (contingents_addFact w l)
    · -- looking it up spells it once more, which makes no difference
      rw [hasContingent, spellFormula_spell, List.any_eq_false] at fresh
      refine List.pairwise_append.2 ⟨h, List.pairwise_singleton _ _, ?_⟩
      intro g mem last single equal
      rw [List.mem_singleton.1 single] at equal
      exact absurd equal (fresh g mem)
  · exact h

theorem addItem (h : w.Apart P) (item : ImportItem) : (w.addItem item).world.Apart P := by
  cases item with
  | object e => exact h.frame (contingents_addObject w e)
  | init f =>
    rw [World.addItem]
    rcases addInit_cases w f with ⟨l, _, eq⟩ | ⟨g, _, eq⟩ | eq | ⟨_, eq⟩ <;> rw [eq]
    · exact h.frame (contingents_addFact w l)
    · exact h.frame (contingents_addFluent w g)
    · exact h.addContingent f
    · exact h
  | contingent f => exact h.addContingent f
  | goal f => exact h.frame (contingents_setGoal w f)

theorem afterImport (h : w.Apart P) (g : Grammar) (s : String) :
    (w.afterImport (w.importWith g s)).Apart P := by
  rcases w.afterImport_cases g s with eq | ⟨p, _, eq⟩ <;> rw [eq]
  · exact h
  · exact importItems_induction (fun v item _ hv => hv.addItem item) h

/-- One-ofs that are stored without being compared have the property. -/
theorem storeOneOfs (h : w.Apart P) {lists : List (List Literal)}
    (left : ∀ ls ∈ lists, 2 ≤ ls.length → P (.oneOf ls)) :
    (w.storeOneOfs lists).world.Apart P := by
  refine storeOneOfs_induction (fun v ls mem nonempty hv => ?_) h
  rcases store_cases v (.oneOf ls) with ⟨l, _, eq⟩ | ⟨sole, eq⟩ <;> rw [eq]
  · -- a single literal is stored as a fact
    exact hv.frame (contingents_addFact v l)
  · have several : 2 ≤ ls.length := by
      match ls with
      | [] => exact absurd rfl nonempty
      | [l] =>
        rw [(Formula.lists_oneOf [l]).soleDisjunct?_eq_some] at sole
        cases sole
      | _ :: _ :: _ => simp
    refine List.pairwise_append.2 ⟨hv, List.pairwise_singleton _ _, ?_⟩
    intro g _ last single _
    rw [List.mem_singleton.1 single]
    exact .inr (left ls mem several)

/-- **Removing a contingent fact** settles one, and then stores what is left of one-ofs. -/
theorem removeContingent (h : w.Apart P) {f : Formula}
    (left : ∀ ls, (Mutation.removeContingent f).Leaves w ls → 2 ≤ ls.length → P (.oneOf ls)) :
    (w.removeContingent f).world.Apart P := by
  have erased : Apart P
      { w with contingents := w.contingents.eraseP (·.equiv (w.spellFormula f)) } :=
    List.Pairwise.sublist List.eraseP_sublist h
  cases known : w.hasContingent f with
  | false =>
    -- what is not stored is not taken out, and settles nothing
    rw [World.removeContingent]
    split
    · exact h
    · rw [if_pos]
      · exact h
      · rw [hasContingent] at known
        simp [known]
  | true =>
    rcases removeContingent_cases w f with ⟨_, r, eq⟩ | ⟨_, eq⟩ | ⟨l, unknown, first, eq⟩ | eq <;>
      rw [eq]
    · exact h
    · exact h
    · rw [settle]
      refine storeOneOfs (List.Pairwise.sublist List.filter_sublist erased) fun ls mem several => ?_
      obtain ⟨g, inside, rest⟩ := List.mem_filterMap.1 mem
      exact left ls (.settled known unknown first (List.mem_of_mem_eraseP inside) rest) several
    · exact erased

/-- **Removing an object** leaves one-ofs that do not name it. -/
theorem removeObject (h : w.Apart P) {object : String}
    (left : ∀ ls, (Mutation.removeObject object).Leaves w ls → 2 ≤ ls.length → P (.oneOf ls)) :
    (w.removeObject object).1.Apart P := by
  rw [World.removeObject]
  split
  · next known =>
    rw [pruneContingents_eq]
    refine frame (w := { w with contingents := w.contingents.filterMap (remainder? object) }) ?_
      (contingents_addFacts _ _)
    -- an entry that does not stay as it is was shortened
    have fate : ∀ f ∈ w.contingents, ∀ g, remainder? object f = some g → g = f ∨ P g := by
      intro f mem g rest
      rw [remainder?] at rest
      split at rest
      · exact .inl (Option.some.inj rest).symm
      · next names =>
        split at rest
        · next oneOf =>
          obtain rfl := Option.some.inj rest
          exact .inr (left _ (.object known mem oneOf.1 (by simpa using names)) oneOf.2)
        · cases rest
    refine List.pairwise_filterMap.2 (List.Pairwise.imp_of_mem ?_ h)
    intro f g inF inG either f' restF g' restG equal
    rcases fate f inF f' restF with rfl | done
    · rcases fate g inG g' restG with rfl | done
      · exact either equal
      · exact .inr done
    · exact .inl done
  · exact h

end Apart

/-- **One mutation**: what it stores without comparing is what it leaves of one-ofs. -/
theorem apart_apply (h : w.Apart P) {m : Mutation}
    (left : ∀ ls, m.Leaves w ls → 2 ≤ ls.length → P (.oneOf ls)) : (m.apply w).Apart P := by
  cases m with
  | addContingent f => exact h.addContingent f
  | removeContingent f => exact h.removeContingent left
  | removeObject object => exact h.removeObject left
  | importProblem s => exact h.afterImport .standard s
  | importWith g s => exact h.afterImport g s
  | clear => exact List.Pairwise.nil
  | addObject _ | addFact _ | removeFact _ | addFluent _ | updateFluent _ | removeFluent _
  | setGoal _ | clearGoal => exact h.frame (by simp [Mutation.apply, World.clearGoal])

/-- **A whole run**: what matches another entry was shortened. -/
theorem apart_run (d : Domain) (ms : List Mutation) :
    ((empty d).run ms).Apart (Shortened d ms) := by
  induction ms using List.reverseRecOn with
  | nil => exact List.Pairwise.nil
  | append_singleton ms m ih =>
    -- what was shortened earlier, and what the last mutation leaves
    let left : Formula → Prop := fun f =>
      ∃ ls, m.Leaves ((empty d).run ms) ls ∧ 2 ≤ ls.length ∧ f = .oneOf ls
    have before : ((empty d).run ms).Apart fun f => Shortened d ms f ∨ left f :=
      ih.mono fun _ _ => .inl
    have after := apart_apply before fun ls leaves several => .inr ⟨ls, leaves, several, rfl⟩
    rw [← run_concat] at after
    refine after.mono fun f stored either => ?_
    rcases either with earlier | ⟨ls, leaves, several, rfl⟩
    · exact .since earlier stored
    · exact .now leaves several

/-- **What can be stored twice** in a world that a run has reached: two entries match only if
both are one-ofs, and at least one of them is what the removal of an object or of an unknown
fact has left of a stored one-of and has been stored ever since. -/
theorem equiv_contingents_run (d : Domain) (ms : List Mutation) :
    ((empty d).run ms).contingents.Pairwise fun f g => f.equiv g = true →
      (f.rootTag? = some .oneOf ∧ g.rootTag? = some .oneOf) ∧
        (Shortened d ms f ∨ Shortened d ms g) := by
  refine (apart_run d ms).imp fun {f g} either equal => ⟨?_, either equal⟩
  have tags := Formula.rootTag?_of_equiv equal
  rcases either equal with short | short
  · exact ⟨short.rootTag?_eq, tags ▸ short.rootTag?_eq⟩
  · exact ⟨tags.trans short.rootTag?_eq, short.rootTag?_eq⟩

/-- A one-of over two literals, one over these and a third one, and the removal of the
unknown fact that the third one is. -/
def thirdSettled : List Mutation :=
  [.addObject ⟨"a", "object"⟩, .addObject ⟨"b", "object"⟩, .addObject ⟨"c", "object"⟩,
    .addContingent (.oneOf [.positive "clear" ["a"], .positive "clear" ["b"],
      .positive "clear" ["c"]]),
    .addContingent (.oneOf [.positive "clear" ["b"], .positive "clear" ["c"]]),
    .addContingent (.unknown (.positive "clear" ["a"])),
    .removeContingent (.unknown (.positive "clear" ["a"]))]

/-- **A run can store a contingent fact twice**, with nothing but bare formulas without
cycles handed in. -/
theorem exists_run_storing_twice :
    ¬ ∀ (d : Domain) (ms : List Mutation),
      (∀ m ∈ ms, m.Takes d fun f => f.BareLeaves ∧ f.Acyclic) →
      ((empty d).run ms).contingents.Pairwise fun f g => f.equiv g = false := by
  intro once
  have takes : ∀ m ∈ thirdSettled, m.Takes clearOnly fun f => f.BareLeaves ∧ f.Acyclic := by
    have word : NodeKind.oneOf.keyword? ≠ none ∧ NodeKind.unknown.keyword? ≠ none := by decide
    have unknown : Formula.unknown (.positive "clear" ["a"]) =
        .ofTerm (.flat .unknown [.positive "clear" ["a"]]) := rfl
    simp only [thirdSettled, List.forall_mem_cons, Mutation.Takes, Formula.oneOf_eq, unknown]
    exact ⟨trivial, trivial, trivial, bareLeaves_and_acyclic_flat word.1 _,
      bareLeaves_and_acyclic_flat word.1 _, bareLeaves_and_acyclic_flat word.2 _,
      bareLeaves_and_acyclic_flat word.2 _, by simp⟩
  have twice : ¬ ((empty clearOnly).run thirdSettled).contingents.Pairwise
      fun f g => f.equiv g = false := by decide +kernel
  exact twice (once clearOnly thirdSettled takes)

end World

end WorldModel
