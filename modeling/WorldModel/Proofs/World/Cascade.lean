/-
What the removal of an object leaves, in every world that can be reached.

Five lists are rewritten by one call. Objects, facts and fluents lose what names the
object; a contingent fact that names it goes, except that a one-of keeps its place with
the literals that are left if these are two at least (`remainder?`), and that a single one
is stored as a fact (`lastDisjunct?`); of the goal the parts that do not name the object
stay. The whole of it is one statement (`Cascade`), and it says of each list both what is
gone and that the rest is there unchanged and in order.

That a literal left over is stored, and not refused by the check that every new fact goes
through, is what needs the invariants of the store: it was valid as a part of the one-of
and does not name the object, so it is valid in the world without it, and it is spelled
already (`addFacts_spec`).
-/
import WorldModel.Proofs.World.Goal

set_option autoImplicit false

namespace WorldModel

/-! ## Fates -/

/-- The literals of a formula that do not name the object. -/
def disjunctsLeft (object : String) (f : Formula) : List Literal :=
  f.literals.filter fun l => !l.mentions object

/-- **What stays of a contingent fact**: all of it if it does not name the object, and of a
one-of the literals that do not, if these are two at least. -/
def remainder? (object : String) (f : Formula) : Option Formula :=
  if f.mentions object = false then some f
  else if f.rootTag? = some .oneOf ∧ 2 ≤ (disjunctsLeft object f).length then
    some (.oneOf (disjunctsLeft object f))
  else none

/-- **The literal that a one-of is left with** when all others name the object. -/
def lastDisjunct? (object : String) (f : Formula) : Option Literal :=
  match disjunctsLeft object f with
  | [l] => if f.mentions object = true ∧ f.rootTag? = some .oneOf then some l else none
  | _ => none

/-- The two are what pruning comes to. -/
theorem pruneContingent_fates (object : String) (f : Formula) :
    (pruneContingent object f).kept? = remainder? object f ∧
      (pruneContingent object f).folded? = lastDisjunct? object f := by
  have left : (f.literals.filter fun l => !l.mentions object) = disjunctsLeft object f := rfl
  rw [pruneContingent, remainder?, lastDisjunct?, left]
  by_cases silent : f.mentions object = false
  · simp only [silent, Bool.not_false, if_true, Bool.false_eq_true, false_and, if_false]
    refine ⟨rfl, ?_⟩
    split <;> rfl
  · have names : f.mentions object = true := by simpa using silent
    simp only [names, Bool.not_true, Bool.true_eq_false, Bool.false_eq_true, if_false, true_and,
      beq_iff_eq]
    by_cases oneOf : f.rootTag? = some .oneOf
    · simp only [oneOf, true_and, if_true]
      rcases disjunctsLeft object f with _ | ⟨l, _ | ⟨m, ls⟩⟩
      · simp [Pruned.kept?, Pruned.folded?]
      · simp [Pruned.kept?, Pruned.folded?]
      · simp [Pruned.kept?, Pruned.folded?]
    · simp only [oneOf, false_and, if_false]
      refine ⟨rfl, ?_⟩
      split <;> rfl

namespace World

/-! ## Folded facts -/

theorem sameFact_self (l : Literal) : l.sameFact l = true :=
  Literal.sameFact_iff.2 ⟨rfl, rfl, rfl⟩

/-- **Adding facts that are valid and spelled** refuses none: those that are not stated yet
are stored behind the others, and all of them are stated then. -/
theorem addFacts_spec (w : World) (ls : List Literal)
    (valid : ∀ l ∈ ls, w.validLiteral l = true)
    (spelled : ∀ l ∈ ls, w.domain.spellPredicate l.name = l.name) :
    ∃ added, w.addFacts ls = { w with facts := w.facts ++ added } ∧ added.Sublist ls ∧
      ∀ l ∈ ls, (w.facts ++ added).any (·.sameFact l) = true := by
  induction ls generalizing w with
  | nil => exact ⟨[], by rw [addFacts, List.foldl_nil, List.append_nil], .slnil, by simp⟩
  | cons l ls ih =>
    obtain ⟨validFirst, valid⟩ := List.forall_mem_cons.1 valid
    obtain ⟨spelledFirst, spelled⟩ := List.forall_mem_cons.1 spelled
    have step : w.addFacts (l :: ls) = (w.addFact l).world.addFacts ls := rfl
    rcases addFact_cases w l with ⟨stored, eq⟩ | ⟨_, _, eq⟩ | ⟨_, invalid, _⟩
    · -- it is stated already
      obtain ⟨added, all, among, stated⟩ := ih w valid spelled
      refine ⟨added, by rw [step, eq]; exact all, among.cons l, ?_⟩
      rw [hasFact, spellLiteral_of_spelled spelledFirst] at stored
      refine List.forall_mem_cons.2 ⟨?_, stated⟩
      rw [List.any_append, stored, Bool.true_or]
    · -- it is stored, and all later ones are valid as before
      rw [spellLiteral_of_spelled spelledFirst] at eq
      obtain ⟨added, all, among, stated⟩ := ih { w with facts := w.facts ++ [l] } valid spelled
      have same : w.facts ++ [l] ++ added = w.facts ++ (l :: added) := by simp
      simp only [same] at all stated
      refine ⟨l :: added, by rw [step, eq]; exact all, among.cons_cons l, ?_⟩
      refine List.forall_mem_cons.2 ⟨?_, stated⟩
      exact List.any_eq_true.2 ⟨l, by simp, sameFact_self l⟩
    · rw [validFirst] at invalid
      cases invalid

/-- Adding facts touches nothing but the facts. -/
theorem addFacts_frame (w : World) (ls : List Literal) :
    w.addFacts ls = { w with facts := (w.addFacts ls).facts } := by
  refine addFacts_induction (I := fun v => v = { w with facts := v.facts }) (fun v l _ same => ?_) rfl
  rcases addFact_cases v l with ⟨_, eq⟩ | ⟨_, _, eq⟩ | ⟨_, _, r, eq⟩ <;> rw [eq]
  · exact same
  · rw [world_accepted, same]
  · exact same

/-! ## The goal -/

/-- A pruned goal does not name the object. -/
theorem mentions_pruneGoal {goal : Formula} {object : String} (names : goal.mentions object = true) :
    (pruneGoal goal object).mentions object = false := by
  obtain ⟨n, root⟩ := Formula.exists_root_of_mentions names
  by_cases top : n.kind = .and ∨ n.kind = .or
  · rw [pruneGoal_of_junction root top, Formula.mentions_junction_eq_false_iff top]
    -- the parts are silent by the filter, whatever terms the children unfold to
    intro t mem
    simpa using (List.mem_filter.1 mem).2
  · rw [pruneGoal_of_other root (not_or.1 top) names]
    exact Formula.mentions_of_term?_eq_none rfl object

/-! ## The whole cascade -/

/-- **What a world is left with** when an object is removed from it. -/
structure Cascade (w v : World) (object : String) : Prop where
  /-- All other objects are there in order. -/
  objects : v.objects = w.objects.filter (·.name != object)
  /-- So are the fluents that do not name it. -/
  fluents : v.fluents = w.fluents.filter fun f => !f.mentions object
  /-- So are the facts, and any others are last literals of one-ofs. -/
  facts : ∃ added, v.facts = (w.facts.filter fun l => !l.mentions object) ++ added ∧
    added.Sublist (w.contingents.filterMap (lastDisjunct? object))
  /-- Every last literal is stated then. -/
  folded : ∀ l ∈ w.contingents.filterMap (lastDisjunct? object),
    v.facts.any (·.sameFact l) = true
  /-- A contingent fact is a head over the literals that its fate depends on. -/
  disjuncts : ∀ f ∈ w.contingents, ∃ k, f.Lists k f.literals
  /-- What stays of the contingent facts stays in its place. -/
  contingents : v.contingents = w.contingents.filterMap (remainder? object)
  goal_kept : w.goal.mentions object = false → v.goal = w.goal
  /-- A conjunction or disjunction keeps the children that do not name the object. -/
  goal_pruned : w.goal.mentions object = true → ∀ n, w.goal.root? = some n →
    n.kind = .and ∨ n.kind = .or → v.goal = .junction n.kind
      ((n.children.filterMap w.goal.unfold).filter fun t => !t.mentions object)
  goal_dropped : w.goal.mentions object = true → ∀ n, w.goal.root? = some n →
    n.kind ≠ .and ∧ n.kind ≠ .or → v.goal = .empty
  /-- Nothing names the object any more. -/
  silent : (∀ e ∈ v.objects, e.name ≠ object) ∧ (∀ l ∈ v.facts, l.mentions object = false) ∧
    (∀ f ∈ v.fluents, f.mentions object = false) ∧
    ∀ f ∈ v.goal :: v.contingents, f.mentions object = false

/-- Where names are different, taking out the object of a name leaves those of other
names. -/
theorem eraseP_eq_filter {es : List Entity} (distinct : (es.map (·.name)).Nodup) (object : String) :
    es.eraseP (·.name == object) = es.filter (·.name != object) := by
  refine eraseP_eq_filter_of_apart ((List.pairwise_map.1 distinct).imp fun {d e} differ both => ?_)
  exact differ ((beq_iff_eq.1 both.1).trans (beq_iff_eq.1 both.2).symm)

section Cascade

variable {w : World} {object : String}

/-- A last literal is valid without the object, which it does not name, and spelled. -/
theorem ContingentsStand.valid_of_lastDisjunct? (stand : w.ContingentsStand) {l : Literal}
    (mem : l ∈ w.contingents.filterMap (lastDisjunct? object)) :
    (w.withoutObject object).validLiteral l = true ∧ l.mentions object = false ∧
      w.domain.spellPredicate l.name = l.name := by
  obtain ⟨f, stored, only⟩ := List.mem_filterMap.1 mem
  rw [← (pruneContingent_fates object f).2] at only
  refine ContingentsStand.valid_of_folded (stand f stored) ?_
  cases fate : pruneContingent object f <;> rw [fate] at only <;> cases only
  rfl

/-- What stays of a contingent fact does not name the object. -/
theorem ContingentsStand.mentions_of_remainder? (stand : w.ContingentsStand) {g : Formula}
    (mem : g ∈ w.contingents.filterMap (remainder? object)) : g.mentions object = false := by
  obtain ⟨f, stored, stays⟩ := List.mem_filterMap.1 mem
  rw [← (pruneContingent_fates object f).1] at stays
  refine (ContingentsStand.stored_of_kept (stand f stored) ?_).2
  cases fate : pruneContingent object f <;> rw [fate] at stays <;> cases stays
  rfl

/-- Pruning the contingent facts comes to two lists: of what stays and of what is a fact. -/
theorem pruneContingents_eq_fates (w : World) (object : String) : w.pruneContingents object =
    addFacts { w with contingents := w.contingents.filterMap fun f => (pruneContingent object f).kept? }
      (w.contingents.filterMap fun f => (pruneContingent object f).folded?) := by
  rw [pruneContingents, List.filterMap_map, List.filterMap_map]
  rfl

theorem pruneContingents_eq (w : World) (object : String) : w.pruneContingents object =
    addFacts { w with contingents := w.contingents.filterMap (remainder? object) }
      (w.contingents.filterMap (lastDisjunct? object)) := by
  have kept : (fun f => (pruneContingent object f).kept?) = remainder? object :=
    funext fun f => (pruneContingent_fates object f).1
  have folded : (fun f => (pruneContingent object f).folded?) = lastDisjunct? object :=
    funext fun f => (pruneContingent_fates object f).2
  rw [pruneContingents_eq_fates, kept, folded]

/-- **Pruning the contingent facts** leaves what stays of them, and stores every last
literal, refusing none. -/
theorem ContingentsStand.exists_pruneContingents_eq (stand : w.ContingentsStand)
    (object : String) :
    ∃ added, (w.withoutObject object).pruneContingents object =
        { w.withoutObject object with
          contingents := w.contingents.filterMap (remainder? object)
          facts := (w.withoutObject object).facts ++ added } ∧
      added.Sublist (w.contingents.filterMap (lastDisjunct? object)) ∧
      ∀ l ∈ w.contingents.filterMap (lastDisjunct? object),
        ((w.withoutObject object).facts ++ added).any (·.sameFact l) = true := by
  obtain ⟨added, all, among, stated⟩ := addFacts_spec
    { w.withoutObject object with contingents := w.contingents.filterMap (remainder? object) }
    (w.contingents.filterMap (lastDisjunct? object))
    (fun l mem => (stand.valid_of_lastDisjunct? mem).1)
    (fun l mem => (stand.valid_of_lastDisjunct? mem).2.2)
  refine ⟨added, ?_, among, stated⟩
  rw [pruneContingents_eq]
  exact all

/-- **The cascade** follows from what holds of the store and of the contingent facts. -/
theorem cascade_of_sound (sound : w.Sound) (stand : w.ContingentsStand) (object : String) :
    Cascade w ((w.withoutObject object).pruneContingents object) object := by
  obtain ⟨added, left, among, stated⟩ := stand.exists_pruneContingents_eq object
  rw [left]
  have objects : w.objects.eraseP (·.name == object) = w.objects.filter (·.name != object) :=
    eraseP_eq_filter sound.objects_distinct object
  -- what is not proved here is how the world without the object was defined
  refine ⟨objects, rfl, ⟨added, rfl, among⟩, stated, ?_, rfl, ?_, ?_, ?_, ?_, ?_, ?_, ?_⟩
  · intro f mem
    obtain ⟨k, ls, lit, _⟩ := stand f mem
    exact ⟨k, by rw [lit.lists.literals_eq lit.head]; exact lit.lists⟩
  · intro silent
    simp [withoutObject, silent]
  · intro names n root top
    rw [← pruneGoal_of_junction root top]
    simp [withoutObject, names]
  · intro names n root other
    rw [← pruneGoal_of_other root other names]
    simp [withoutObject, names]
  · intro e mem
    have other : (e.name != object) = true := by
      have inside : e ∈ w.objects.filter (·.name != object) := objects ▸ mem
      exact (List.mem_filter.1 inside).2
    simpa using other
  · refine List.forall_mem_append.2 ⟨fun l mem => ?_, fun l mem => ?_⟩
    · simpa using (List.mem_filter.1 mem).2
    · exact (stand.valid_of_lastDisjunct? (among.subset mem)).2.1
  · intro f mem
    simpa using (List.mem_filter.1 mem).2
  · refine List.forall_mem_cons.2 ⟨?_, fun g mem => stand.mentions_of_remainder? mem⟩
    cases names : w.goal.mentions object with
    | false => simp [withoutObject, names]
    | true => simpa [withoutObject, names] using mentions_pruneGoal names

end Cascade

/-- **The removal of an object that is there**, after any run over any domain in which
nothing stands below the leaves of the formulas that are handed in, is reported, and leaves
what the cascade says: everything that names the object is gone, everything else is there
in its order, and nothing is new but the last literals of one-ofs, which are all facts. -/
theorem removeObject_cascade (d : Domain) (ms : List Mutation)
    (takes : ∀ m ∈ ms, m.Takes d Formula.BareLeaves) (object : String)
    (stored : ∃ e ∈ ((empty d).run ms).objects, e.name = object) :
    let w := (empty d).run ms
    (w.removeObject object).2 = some (w.cascadeReport object) ∧
      Cascade w (w.removeObject object).1 object := by
  intro w
  have sound : w.Sound := sound_run d ms
  have stand : w.ContingentsStand := (kept_contingentsStand d).run readerMakes_bareLeaves takes
  obtain ⟨e, inside, rfl⟩ := stored
  have there : w.objects.any (·.name == e.name) = true :=
    List.any_eq_true.2 ⟨e, inside, by simp⟩
  have removed : w.removeObject e.name =
      ((w.withoutObject e.name).pruneContingents e.name, some (w.cascadeReport e.name)) := by
    rw [removeObject, if_pos there]
  rw [removed]
  exact ⟨rfl, cascade_of_sound sound stand e.name⟩

/-- Of the one-of over three literals two are left when an object is removed, in the place
of the three. -/
theorem removeObject_cascade_clearing :
    let w := (empty clearOnly).run clearing
    Cascade w (w.removeObject "a").1 "a" ∧ (w.removeObject "a").1.contingents.length = 1 := by
  intro w
  have takes : ∀ m ∈ clearing, m.Takes clearOnly Formula.BareLeaves :=
    fun m mem => (takes_clearing m mem).imp fun _ both => both.1
  have stored : ∃ e ∈ w.objects, e.name = "a" := by
    refine ⟨⟨"a", "object"⟩, ?_, rfl⟩
    decide +kernel
  exact ⟨(removeObject_cascade clearOnly clearing takes "a" stored).2, by decide +kernel⟩

end World

end WorldModel
