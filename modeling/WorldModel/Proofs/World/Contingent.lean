/-
The contingent facts of every world that can be reached.

A formula is checked when it is added as a contingent fact, and not again: settling an
unknown fact and removing an object make new one-ofs out of stored ones and store them
unchecked. What makes this sound is that a stored contingent fact is a head over literals
(`Lists`), each of them valid and in the domain's spelling, and that a one-of over some of
these literals is such a formula again (`Over`). One with a single literal never stays: it
is stored as a fact (`Stored`).
-/
import WorldModel.Proofs.World.Run
import WorldModel.Proofs.World.Shape

set_option autoImplicit false

namespace WorldModel

/-! ## What a head over literals says -/

namespace Formula

variable {f : Formula} {k : NodeKind} {ls : List Literal}

theorem Lists.literals_eq (lists : f.Lists k ls) (head : Heads k ls.length) : f.literals = ls := by
  rw [literals_of_term? (lists.term?_eq head.keyword?_ne_none),
    Term.literals_flat head.literal?_eq_none]

theorem Lists.fluents_eq (lists : f.Lists k ls) (head : Heads k ls.length) : f.fluents = [] := by
  rw [fluents_of_term? (lists.term?_eq head.keyword?_ne_none),
    Term.fluents_flat head.fluent?_eq_none]

theorem Lists.mentions_eq (lists : f.Lists k ls) (head : Heads k ls.length) (object : String) :
    f.mentions object = ls.any (·.mentions object) := by
  rw [mentions, lists.literals_eq head, lists.fluents_eq head, List.any_nil, Bool.or_false]

theorem Lists.rootTag?_eq (lists : f.Lists k ls) : f.rootTag? = some k.tag := by
  obtain ⟨n, root, rfl, _⟩ := lists
  rw [rootTag?, root, Option.map_some]

/-- A one-of over a single literal is told by it. -/
theorem Lists.soleDisjunct?_eq_some {l : Literal} (lists : f.Lists .oneOf [l]) :
    World.soleDisjunct? f = some l := by
  obtain ⟨n, root, kind, each⟩ := lists
  obtain ⟨c, cs, ⟨m, found, leaf, _⟩, none_, below⟩ := List.forall₂_cons_right_iff.1 each
  obtain rfl := List.forall₂_nil_right_iff.1 none_
  simp [World.soleDisjunct?, root, kind, below, found, leaf, NodeKind.tag, NodeKind.literal?]

/-- Any other contingent fact is none over a single literal. -/
theorem Lists.soleDisjunct?_eq_none (lists : f.Lists k ls) (several : k = .oneOf → ls.length ≠ 1) :
    World.soleDisjunct? f = none := by
  obtain ⟨n, root, rfl, each⟩ := lists
  rw [World.soleDisjunct?, root]
  dsimp only
  split
  · next c tag children =>
    have oneOf : n.kind = .oneOf := by
      match kind : n.kind, tag with
      | .oneOf, _ => rfl
    have single : ls.length = 1 := by rw [← each.length_eq, children, List.length_singleton]
    exact absurd single (several oneOf)
  · rfl

end Formula

namespace World

variable {w v : World} {f : Formula} {k : NodeKind} {ls : List Literal}

/-- A head over literals is valid when each of them is. -/
theorem validFormula_of_lists (lists : f.Lists k ls) (head : Heads k ls.length) :
    w.validFormula f = true ↔ ∀ l ∈ ls, w.validLiteral l = true := by
  have leaves : ∀ l, w.validTerm (.node (.predicate l) []) = w.validLiteral l := fun _ => rfl
  rw [validFormula_of_term? (lists.term?_eq head.keyword?_ne_none), Term.flat,
    validTerm_node_iff fun leaf => absurd leaf head.keyword?_ne_none]
  constructor
  · rintro ⟨_, _, below⟩ l mem
    rw [← leaves]
    exact below _ (List.mem_map_of_mem mem)
  · intro each
    refine ⟨?_, ?_, ?_⟩
    · generalize ls.length = count at head
      rcases head with _ | _ | _ <;> trivial
    · rintro (rfl | rfl)
      · exact absurd rfl head.ne_not
      · rw [List.length_map, head.count_of_unknown]
    · intro c mem
      obtain ⟨l, inside, rfl⟩ := List.mem_map.1 mem
      rw [leaves]
      exact each l inside

/-! ## Sound over literals -/

/-- **The formula is a head over literals** that are valid and in the domain's spelling. -/
structure Over (w : World) (f : Formula) (k : NodeKind) (ls : List Literal) : Prop where
  lists : f.Lists k ls
  head : Heads k ls.length
  valid : ∀ l ∈ ls, w.validLiteral l = true
  spelled : ∀ l ∈ ls, w.domain.spellPredicate l.name = l.name

theorem Over.mono (h : w.Over f k ls) (domain : v.domain = w.domain)
    (valid : ∀ l ∈ ls, w.validLiteral l = true → v.validLiteral l = true) : v.Over f k ls :=
  ⟨h.lists, h.head, fun l mem => valid l mem (h.valid l mem),
    fun l mem => domain ▸ h.spelled l mem⟩

/-- **What the checks let through** is such a formula once it is spelled. -/
theorem over_of_checked (bare : f.BareLeaves) (shape : shapeFault? f = none)
    (valid : w.validFormula f = true) : ∃ k ls, w.Over (w.spellFormula f) k ls := by
  obtain ⟨k, ls, lists, head⟩ := Formula.exists_lists_of_shapeFault? bare shape
  have each := (validFormula_of_lists lists head).1 valid
  refine ⟨k, ls.map w.spellLiteral, ⟨lists.renameAtoms (head.rename _ _), ?_, ?_, ?_⟩⟩
  · rw [List.length_map]
    exact head
  · refine List.forall_mem_map.2 fun l mem => ?_
    rw [validLiteral_spell]
    exact each l mem
  · exact List.forall_mem_map.2 fun l _ => Domain.spellPredicate_spell _ _

/-- A one-of over some of the literals is such a formula again. -/
theorem Over.oneOf {ms : List Literal} (h : w.Over f k ls) (among : ms ⊆ ls) (nonempty : ms ≠ []) :
    w.Over (.oneOf ms) .oneOf ms :=
  ⟨Formula.lists_oneOf ms, .oneOf (by simpa using nonempty), fun l mem => h.valid l (among mem),
    fun l mem => h.spelled l (among mem)⟩

/-- **A contingent fact as it is stored**: no one-of over a single literal. -/
def Stored (w : World) (f : Formula) : Prop :=
  ∃ k ls, w.Over f k ls ∧ (k = .oneOf → ls.length ≠ 1)

theorem Stored.mono (h : w.Stored f) (domain : v.domain = w.domain)
    (valid : ∀ l ∈ f.literals, w.validLiteral l = true → v.validLiteral l = true) : v.Stored f := by
  obtain ⟨k, ls, lit, several⟩ := h
  rw [lit.lists.literals_eq lit.head] at valid
  exact ⟨k, ls, lit.mono domain valid, several⟩

/-- Each contingent fact that a removal leaves is what it kept of one. -/
theorem exists_kept_of_mem {object : String} {fs : List Formula} {g : Formula}
    (mem : g ∈ (fs.map (pruneContingent object)).filterMap Pruned.kept?) :
    ∃ f ∈ fs, pruneContingent object f = .kept g := by
  obtain ⟨pruned, inside, kept⟩ := List.mem_filterMap.1 mem
  obtain ⟨f, stored, rfl⟩ := List.mem_map.1 inside
  refine ⟨f, stored, ?_⟩
  cases eq : pruneContingent object f <;> rw [eq] at kept <;> cases kept
  rfl

/-- **What becomes of a head over literals** when an object goes. -/
theorem pruneContingent_of_lists (lists : f.Lists k ls) (head : Heads k ls.length)
    (object : String) : pruneContingent object f =
      if ls.any (·.mentions object) = false then .kept f
      else if k.tag = .oneOf then
        match ls.filter fun l => !l.mentions object with
        | [] => .dropped
        | [l] => .folded l
        | ms => .kept (.oneOf ms)
      else .dropped := by
  rw [pruneContingent, lists.mentions_eq head, lists.literals_eq head, lists.rootTag?_eq]
  refine ite_congr ?_ (fun _ => rfl) fun _ => ?_
  · rw [Bool.not_eq_true']
  · refine ite_congr ?_ (fun _ => rfl) fun _ => rfl
    rw [Option.some_beq_some, beq_iff_eq]

/-! ## The invariant -/

theorem objects_addFact (w : World) (l : Literal) : (w.addFact l).world.objects = w.objects := by
  rcases addFact_cases w l with ⟨_, eq⟩ | ⟨_, _, eq⟩ | ⟨_, _, r, eq⟩ <;> rw [eq] <;> rfl

theorem objects_store (w : World) (f : Formula) : (w.store f).world.objects = w.objects := by
  rcases store_cases w f with ⟨l, _, eq⟩ | ⟨_, eq⟩ <;> rw [eq]
  · exact objects_addFact w l
  · rfl

/-- **All contingent facts** of the world are as they are stored. -/
def ContingentsStand (w : World) : Prop :=
  ∀ f ∈ w.contingents, w.Stored f

namespace ContingentsStand

theorem frame (h : w.ContingentsStand) (domain : v.domain = w.domain) (objects : v.objects = w.objects)
    (contingents : ∀ f ∈ v.contingents, f ∈ w.contingents) : v.ContingentsStand := by
  intro f mem
  refine (h f (contingents f mem)).mono domain fun l _ valid => ?_
  exact validLiteral_mono domain (keeps_of_objects objects _) valid

/-- With more objects all literals stay valid. -/
theorem addObject (h : w.ContingentsStand) (e : Entity) :
    (w.addObject e).world.ContingentsStand := by
  rcases addObject_cases w e with ⟨_, _, _, eq⟩ | ⟨_, _, eq⟩ | ⟨r, eq⟩ <;> rw [eq]
  · exact h
  · intro f mem
    refine (h f mem).mono rfl fun l _ valid => ?_
    exact validLiteral_mono (w := w) rfl (keeps_append w [e] l.args) valid
  · exact h

theorem addFact (h : w.ContingentsStand) (l : Literal) : (w.addFact l).world.ContingentsStand := by
  rcases addFact_cases w l with ⟨_, eq⟩ | ⟨_, _, eq⟩ | ⟨_, _, r, eq⟩ <;> rw [eq]
  · exact h
  · exact h.frame rfl rfl fun _ mem => mem
  · exact h

theorem removeFact (h : w.ContingentsStand) (l : Literal) :
    (w.removeFact l).world.ContingentsStand := by
  rcases removeFact_cases w l with ⟨_, eq⟩ | ⟨_, r, eq⟩ <;> rw [eq]
  · exact h.frame rfl rfl fun _ mem => mem
  · exact h

theorem addFluent (h : w.ContingentsStand) (f : Fluent) :
    (w.addFluent f).world.ContingentsStand := by
  rcases addFluent_cases w f with ⟨_, _, eq⟩ | ⟨_, _, eq⟩ | ⟨_, r, eq⟩ <;> rw [eq]
  · exact h.frame rfl rfl fun _ mem => mem
  · exact h.frame rfl rfl fun _ mem => mem
  · exact h

theorem updateFluent (h : w.ContingentsStand) (f : Fluent) :
    (w.updateFluent f).world.ContingentsStand := by
  rcases updateFluent_cases w f with ⟨_, _, eq⟩ | ⟨_, r, eq⟩ <;> rw [eq]
  · exact h.frame rfl rfl fun _ mem => mem
  · exact h

theorem removeFluent (h : w.ContingentsStand) (f : Fluent) :
    (w.removeFluent f).world.ContingentsStand := by
  rcases removeFluent_cases w f with ⟨_, eq⟩ | ⟨_, r, eq⟩ <;> rw [eq]
  · exact h.frame rfl rfl fun _ mem => mem
  · exact h

theorem setGoal (h : w.ContingentsStand) (f : Formula) : (w.setGoal f).world.ContingentsStand := by
  rcases setGoal_cases w f with ⟨_, eq⟩ | ⟨_, r, eq⟩ <;> rw [eq]
  · exact h.frame rfl rfl fun _ mem => mem
  · exact h

/-- **Storing** a one-of over a single literal stores a fact, and storing any other formula
over literals stores it as it is. -/
theorem store (h : w.ContingentsStand) (lit : w.Over f k ls) :
    (w.store f).world.ContingentsStand := by
  rcases store_cases w f with ⟨l, _, eq⟩ | ⟨sole, eq⟩ <;> rw [eq]
  · exact h.addFact l
  · -- a one-of over a single literal would have been stored as a fact
    have several : k = .oneOf → ls.length ≠ 1 := by
      rintro rfl single
      obtain ⟨l, rfl⟩ := List.length_eq_one_iff.1 single
      rw [lit.lists.soleDisjunct?_eq_some] at sole
      cases sole
    intro g mem
    rcases List.mem_append.1 mem with mem | mem
    · exact (h g mem).mono rfl fun l _ valid => valid
    · rw [List.mem_singleton.1 mem]
      exact ⟨k, ls, lit.mono rfl fun l _ valid => valid, several⟩

theorem addContingent (h : w.ContingentsStand) (bare : f.BareLeaves) :
    (w.addContingent f).world.ContingentsStand := by
  rcases addContingent_cases w f with ⟨shape, valid, _, eq⟩ | ⟨r, eq⟩ <;> rw [eq]
  · obtain ⟨k, ls, lit⟩ := over_of_checked bare shape valid
    exact h.store lit
  · exact h

/-- What is left of a one-of is a list of literals of a stored contingent fact. -/
theorem literals_of_withoutDisjunct? {l : Literal} (left : withoutDisjunct? l f = some ls) :
    ls ⊆ f.literals := by
  rw [withoutDisjunct?] at left
  split at left
  · obtain rfl := Option.some.inj left
    exact List.filter_subset_self _
  · cases left

/-- **Settling** stores one-ofs over literals that were stored before. -/
theorem settle (h : w.ContingentsStand) (l : Literal) : (w.settle l).world.ContingentsStand := by
  -- while the one-ofs are stored the objects stay, so their literals stay valid
  have stored : ∀ v : World, ∀ ms ∈ w.contingents.filterMap (withoutDisjunct? l), ms ≠ [] →
      (v.domain = w.domain ∧ v.objects = w.objects ∧ v.ContingentsStand) →
      (v.store (.oneOf ms)).world.domain = w.domain ∧
        (v.store (.oneOf ms)).world.objects = w.objects ∧
        (v.store (.oneOf ms)).world.ContingentsStand := by
    rintro v ms mem nonempty ⟨domain, objects, stand⟩
    obtain ⟨f, inside, left⟩ := List.mem_filterMap.1 mem
    obtain ⟨k, ls, lit, _⟩ := h f inside
    have among : ms ⊆ ls := by
      have within := literals_of_withoutDisjunct? left
      rwa [lit.lists.literals_eq lit.head] at within
    have overs : v.Over (.oneOf ms) .oneOf ms := by
      refine (lit.oneOf among nonempty).mono domain fun l _ valid => ?_
      exact validLiteral_mono domain (keeps_of_objects objects _) valid
    refine ⟨by rw [domain_store, domain], ?_, stand.store overs⟩
    rw [objects_store, objects]
  -- those that hold the literal are taken out before what is left of them is stored
  have start : ContingentsStand
      { w with contingents := w.contingents.filter fun f => (withoutDisjunct? l f).isNone } :=
    h.frame rfl rfl fun f mem => List.mem_of_mem_filter mem
  have all := storeOneOfs_induction (I := fun v => v.domain = w.domain ∧ v.objects = w.objects ∧
    v.ContingentsStand) stored (w := { w with
      contingents := w.contingents.filter fun f => (withoutDisjunct? l f).isNone })
    ⟨rfl, rfl, start⟩
  rw [World.settle]
  exact all.2.2

theorem removeContingent (h : w.ContingentsStand) (f : Formula) :
    (w.removeContingent f).world.ContingentsStand := by
  have erased : ContingentsStand
      { w with contingents := w.contingents.eraseP (·.equiv (w.spellFormula f)) } :=
    h.frame rfl rfl fun g mem => List.mem_of_mem_eraseP mem
  rcases removeContingent_cases w f with ⟨_, r, eq⟩ | ⟨_, eq⟩ | ⟨l, _, _, eq⟩ | eq <;> rw [eq]
  · exact h
  · exact h
  · exact erased.settle l
  · exact erased

/-! ### Removing an object -/

theorem validLiteral_withoutObject {object : String} {l : Literal}
    (silent : l.mentions object = false) (valid : w.validLiteral l = true) :
    (w.withoutObject object).validLiteral l = true :=
  validLiteral_mono (w := w) rfl (keeps_eraseP silent) valid

/-- **What is kept of a contingent fact** does not name the object, and is as it is
stored. -/
theorem stored_of_kept {object : String} {g : Formula} (h : w.Stored f)
    (kept : pruneContingent object f = .kept g) :
    (w.withoutObject object).Stored g ∧ g.mentions object = false := by
  obtain ⟨k, ls, lit, several⟩ := h
  rw [pruneContingent_of_lists lit.lists lit.head] at kept
  split at kept
  · -- it does not name the object and is kept whole
    next silent =>
    obtain rfl := Pruned.kept.inj kept
    rw [lit.lists.mentions_eq lit.head]
    refine ⟨⟨k, ls, lit.mono rfl fun l mem valid => ?_, several⟩, silent⟩
    exact validLiteral_withoutObject (by simpa using List.any_eq_false.1 silent l mem) valid
  split at kept
  · split at kept
    · cases kept
    · cases kept
    · next nonempty plural =>
      -- a one-of over the literals that do not name the object, two of them at least
      obtain rfl := Pruned.kept.inj kept
      have among : ls.filter (fun l => !l.mentions object) ⊆ ls := List.filter_subset_self _
      have silent : ∀ l ∈ ls.filter (fun l => !l.mentions object), l.mentions object = false :=
        fun l mem => by simpa using (List.mem_filter.1 mem).2
      have left := lit.oneOf among nonempty
      have single : (ls.filter fun l => !l.mentions object).length ≠ 1 := by
        intro one
        obtain ⟨l, eq⟩ := List.length_eq_one_iff.1 one
        exact plural l eq
      refine ⟨⟨.oneOf, _, left.mono rfl fun l mem valid => ?_, fun _ => single⟩, ?_⟩
      · exact validLiteral_withoutObject (silent l mem) valid
      · rw [left.lists.mentions_eq left.head, List.any_eq_false]
        exact fun l mem => by simp [silent l mem]
  · cases kept

/-- **The literal that a one-of is left with** does not name the object, is valid without
it, and is in the domain's spelling. -/
theorem valid_of_folded {object : String} {l : Literal} (h : w.Stored f)
    (folded : pruneContingent object f = .folded l) :
    (w.withoutObject object).validLiteral l = true ∧ l.mentions object = false ∧
      w.domain.spellPredicate l.name = l.name := by
  obtain ⟨k, ls, lit, several⟩ := h
  rw [pruneContingent_of_lists lit.lists lit.head] at folded
  split at folded
  · cases folded
  split at folded
  · split at folded
    · cases folded
    · -- the literal is the only one in the list of those that do not name the object
      next last =>
      rw [Pruned.folded.inj folded] at last
      obtain ⟨mem, silent⟩ : l ∈ ls ∧ l.mentions object = false := by
        have inside : l ∈ ls.filter fun l => !l.mentions object := by
          rw [last]
          exact List.mem_singleton_self l
        simpa using inside
      exact ⟨validLiteral_withoutObject silent (lit.valid l mem), silent, lit.spelled l mem⟩
    · cases folded
  · cases folded

theorem removeObject (h : w.ContingentsStand) (object : String) :
    (w.removeObject object).1.ContingentsStand := by
  rw [World.removeObject]
  split
  · refine addFacts_induction (fun v l _ hv => hv.addFact l) ?_
    intro g mem
    obtain ⟨f, stored, keeps⟩ := exists_kept_of_mem mem
    exact (stored_of_kept (h f stored) keeps).1.mono rfl fun l _ valid => valid
  · exact h

end ContingentsStand

/-- **Contingent facts stand** in every world that can be reached with formulas of bare
leaves. -/
theorem kept_contingentsStand (d : Domain) : Kept d Formula.BareLeaves ContingentsStand where
  empty := fun _ mem => absurd mem List.not_mem_nil
  addObject e h := h.addObject e
  removeObject object h := h.removeObject object
  addFact l h := h.addFact l
  removeFact l h := h.removeFact l
  addFluent f h := h.addFluent f
  updateFluent f h := h.updateFluent f
  removeFluent f h := h.removeFluent f
  addContingent bare h := h.addContingent bare
  removeContingent _ h := h.removeContingent _
  setGoal _ h := h.setGoal _
  clearGoal h := h.frame rfl rfl fun _ mem => mem

end World

end WorldModel
