/-
The goal of every world that can be reached.

A goal is checked when it is set. After that only the removal of an object changes it, by
taking a conjunction or disjunction apart, leaving out the parts that name the object and
putting the rest together again. On terms this is no more than a filter on the children of
the top (`pruneGoal_of_junction`), provided that the parts that are put together are what
the check has seen: they are unfolded from their own nodes, one level deeper than the
check has unfolded them from the root. So the invariant asks that the goal is shown whole
(`GoalStands`), which formulas without cycles are. No formula with a cycle is: a walk down
from its root does not come to an end, and so no check of it does.
-/
import WorldModel.Proofs.Formula.Extraction
import WorldModel.Proofs.Problem.Sections
import WorldModel.Proofs.World.Contingent
import WorldModel.Proofs.World.Store

set_option autoImplicit false

namespace WorldModel

/-! ## Pruning -/

theorem NodeKind.eq_and_of_tag {k : NodeKind} (h : k.tag = .and) : k = .and := by
  cases k <;> cases h
  rfl

theorem NodeKind.eq_or_of_tag {k : NodeKind} (h : k.tag = .or) : k = .or := by
  cases k <;> cases h
  rfl

namespace Formula

/-- A head over terms; the empty formula if there are none. -/
def junction (k : NodeKind) : List Term → Formula
  | [] => .empty
  | ts => .ofTerm (.node k ts)

theorem term?_junction (k : NodeKind) {ts : List Term} (nonempty : ts ≠ []) :
    (junction k ts).term? = some (.node k ts) := by
  cases ts with
  | nil => exact absurd rfl nonempty
  | cons t ts => exact term?_ofTerm _

theorem term?_junction_eq_some {k : NodeKind} {ts : List Term} {t : Term}
    (h : (junction k ts).term? = some t) : t = .node k ts := by
  cases ts with
  | nil => cases h
  | cons u us =>
    rw [term?_junction k (List.cons_ne_nil _ _)] at h
    exact (Option.some.inj h).symm

theorem whole_junction (k : NodeKind) (ts : List Term) : (junction k ts).Whole := by
  cases ts with
  | nil => rfl
  | cons t ts => exact whole_ofTerm _

theorem acyclic_junction (k : NodeKind) (ts : List Term) : (junction k ts).Acyclic := by
  cases ts with
  | nil => exact acyclic_empty
  | cons t ts => exact acyclic_ofTerm _

/-- A formula of parts names what they name. -/
theorem mentions_junction_eq_false_iff {k : NodeKind} (top : k = .and ∨ k = .or) {ts : List Term}
    {object : String} : (junction k ts).mentions object = false ↔
      ∀ t ∈ ts, t.mentions object = false := by
  by_cases none_ : ts = []
  · rw [none_]
    exact iff_of_true (mentions_of_term?_eq_none rfl object) (by simp)
  · rw [mentions_of_term? (term?_junction k none_), Term.mentions_node_eq_false_iff top]

/-- The parts that are left and not empty are numbered terms: those of the children that
do not name the object. -/
theorem survivingParts_eq (f : Formula) (object : String) (ids : List Nat) :
    ((ids.map f.extract).filter fun p => !p.mentions object).filter (fun p => !p.isEmpty) =
      ((ids.filterMap f.unfold).filter fun t => !t.mentions object).map ofTerm := by
  induction ids with
  | nil => rfl
  | cons id ids ih =>
    rw [List.map_cons, extract]
    cases unfolded : f.unfold id with
    | none =>
      -- a missing part is empty and names nothing
      have silent := mentions_of_term?_eq_none (f := .empty) rfl object
      rw [List.filterMap_cons_none unfolded, ofTerm?, List.filter_cons_of_pos (by simp [silent]),
        List.filter_cons_of_neg (by simp [isEmpty, empty]), ih]
    | some t =>
      have names : (ofTerm t).mentions object = t.mentions object :=
        mentions_of_term? (term?_ofTerm t) object
      rw [List.filterMap_cons_some unfolded, ofTerm?]
      cases silent : t.mentions object with
      | true =>
        rw [List.filter_cons_of_neg (by simp [names, silent]),
          List.filter_cons_of_neg (by simp [silent]), ih]
      | false =>
        rw [List.filter_cons_of_pos (by simp [names, silent]),
          List.filter_cons_of_pos (by simp [isEmpty_ofTerm]),
          List.filter_cons_of_pos (by simp [silent]), ih, List.map_cons]

/-- Joining numbered terms puts the top over them. -/
theorem fromSubtrees_eq_junction {k : NodeKind} (top : k = .and ∨ k = .or) {parts : List Formula}
    {ts : List Term} (eq : parts.filter (fun p => !p.isEmpty) = ts.map ofTerm) :
    (fromSubtrees k.tag parts).getD .empty = junction k ts := by
  match ts with
  | [] =>
    rw [fromSubtrees.eq_def, eq]
    rcases top with rfl | rfl <;> rfl
  | t :: ts =>
    rw [fromSubtrees_eq_ofTerm top (List.cons_ne_nil t ts) eq]
    rfl

end Formula

/-- **A conjunction or disjunction is pruned** to the children that do not name the
object. -/
theorem pruneGoal_of_junction {goal : Formula} {n : Node} (root : goal.root? = some n)
    (top : n.kind = .and ∨ n.kind = .or) (object : String) :
    pruneGoal goal object =
      .junction n.kind ((n.children.filterMap goal.unfold).filter fun t => !t.mentions object) := by
  have parts : (survivingParts goal object).filter (fun p => !p.isEmpty) =
      ((n.children.filterMap goal.unfold).filter fun t => !t.mentions object).map .ofTerm := by
    rw [← Formula.survivingParts_eq, survivingParts, Formula.topLevel_of_root root top]
  have joined := Formula.fromSubtrees_eq_junction top parts
  rw [pruneGoal, Formula.rootTag?, root, Option.map_some]
  rcases top with kind | kind <;> rw [kind] at joined ⊢ <;> exact joined

/-- Any other goal that names the object is dropped. -/
theorem pruneGoal_of_other {goal : Formula} {n : Node} (root : goal.root? = some n)
    (other : n.kind ≠ .and ∧ n.kind ≠ .or) {object : String} (names : goal.mentions object = true) :
    pruneGoal goal object = .empty := by
  have parts : survivingParts goal object = [] := by
    have top : goal.topLevel = [goal] := by
      rw [Formula.topLevel, root]
      dsimp only
      split
      · next kind => exact absurd kind other.1
      · next kind => exact absurd kind other.2
      · rfl
    rw [survivingParts, top, List.filter_cons_of_neg (by simp [names]), List.filter_nil]
  rw [pruneGoal, Formula.rootTag?, root, parts]
  dsimp only [Option.map_some]
  split
  · next tag => exact absurd (NodeKind.eq_and_of_tag (Option.some.inj tag)) other.1
  · next tag => exact absurd (NodeKind.eq_or_of_tag (Option.some.inj tag)) other.2
  · rfl

namespace World

variable {w v : World} {t : Term}

/-! ## Terms that stand -/

/-- **A term stands** in a world when it is bare and valid and all of it is in the
domain's spelling. -/
structure TermStands (w : World) (t : Term) : Prop where
  bare : t.Bare
  valid : w.validTerm t = true
  spelled : ∀ k ∈ t.kinds, w.spellKind k = k

/-- It stands where its atoms stay valid. -/
theorem TermStands.mono (h : w.TermStands t) (domain : v.domain = w.domain)
    (atoms : ∀ k ∈ t.kinds, w.ValidKind k → v.ValidKind k) : v.TermStands t := by
  refine ⟨h.bare, validTerm_mono h.bare atoms h.valid, fun k mem => ?_⟩
  have spelled := h.spelled k mem
  rwa [spellKind, ← domain] at spelled

/-- What the check of formulas lets through stands once it is spelled. -/
theorem termStands_spell (bare : t.Bare) (valid : w.validTerm t = true) :
    w.TermStands (t.mapKinds w.spellKind) := by
  have bareSpelled : (t.mapKinds w.spellKind).Bare := by
    refine bare.mapKinds fun k => ?_
    cases k <;> rfl
  refine ⟨bareSpelled, ?_, fun k mem => ?_⟩
  · rw [validTerm_spell]
    exact valid
  · rw [Term.kinds_mapKinds] at mem
    obtain ⟨l, _, rfl⟩ := List.mem_map.1 mem
    exact spellKind_spellKind w l

/-- A conjunction or disjunction of terms that stand is what its parts are. -/
theorem termStands_node_iff {k : NodeKind} {cs : List Term} (top : k = .and ∨ k = .or) :
    w.TermStands (.node k cs) ↔ ∀ c ∈ cs, w.TermStands c := by
  have noLeaf : k.keyword? = none → cs = [] := by
    rcases top with rfl | rfl <;> exact fun leaf => nomatch leaf
  have unary : ¬ (k = .not ∨ k = .unknown) := by
    rcases top with rfl | rfl <;> simp
  have atom : w.ValidKind k ∧ w.spellKind k = k := by
    rcases top with rfl | rfl <;> exact ⟨trivial, rfl⟩
  constructor
  · rintro ⟨⟨_, bare⟩, valid, spelled⟩ c mem
    have below := ((validTerm_node_iff noLeaf).1 valid).2.2
    exact ⟨bare c mem, below c mem, (Term.forall_kinds_node.1 spelled).2 c mem⟩
  · intro each
    refine ⟨.node noLeaf fun c mem => (each c mem).bare, ?_, ?_⟩
    · refine (validTerm_node_iff noLeaf).2 ⟨atom.1, fun one => absurd one unary, ?_⟩
      exact fun c mem => (each c mem).valid
    · exact Term.forall_kinds_node.2 ⟨atom.2, fun c mem => (each c mem).spelled⟩

/-- Atoms that do not name the object stay valid when it goes. -/
theorem validKind_withoutObject {object : String} (silent : t.mentions object = false) :
    ∀ k ∈ t.kinds, w.ValidKind k → (w.withoutObject object).ValidKind k := by
  obtain ⟨literals, fluents⟩ := Term.mentions_eq_false_iff.1 silent
  intro k mem valid
  match k with
  | .predicate l =>
    have quiet := literals l (Term.mem_literals.2 mem)
    exact validLiteral_mono (w := w) rfl (keeps_eraseP quiet) valid
  | .function f =>
    have quiet := fluents f (Term.mem_fluents.2 mem)
    exact validFluent_mono (w := w) rfl (keeps_eraseP quiet) valid
  | .and | .or | .not | .unknown | .oneOf | .expression _ | .update _ | .number _ => trivial

/-- Atoms stay valid where all objects are. -/
theorem validKind_mono (domain : v.domain = w.domain) (keeps : ∀ as, Keeps w v as)
    {k : NodeKind} (valid : w.ValidKind k) : v.ValidKind k := by
  match k with
  | .predicate l => exact validLiteral_mono domain (keeps _) valid
  | .function f => exact validFluent_mono domain (keeps _) valid
  | .and | .or | .not | .unknown | .oneOf | .expression _ | .update _ | .number _ => trivial

/-! ## The invariant -/

/-- **The goal stands**: it is shown whole, and the term it shows stands. -/
structure GoalStands (w : World) : Prop where
  whole : w.goal.Whole
  stands : ∀ t, w.goal.term? = some t → w.TermStands t

namespace GoalStands

/-- Facts, fluents and contingent facts have no part in it. -/
theorem frame (h : w.GoalStands) (domain : v.domain = w.domain) (objects : v.objects = w.objects)
    (goal : v.goal = w.goal) : v.GoalStands := by
  refine ⟨by rw [goal]; exact h.whole, fun t shown => ?_⟩
  rw [goal] at shown
  exact (h.stands t shown).mono domain fun k _ =>
    validKind_mono domain (keeps_of_objects objects)

theorem addObject (h : w.GoalStands) (e : Entity) : (w.addObject e).world.GoalStands := by
  rcases addObject_cases w e with ⟨_, _, _, eq⟩ | ⟨_, _, eq⟩ | ⟨r, eq⟩ <;> rw [eq]
  · exact h
  · refine ⟨h.whole, fun t shown => (h.stands t shown).mono rfl fun k _ valid => ?_⟩
    exact validKind_mono (w := w) (v := { w with objects := w.objects ++ [e] }) rfl
      (keeps_append w [e]) valid
  · exact h

theorem addFact (h : w.GoalStands) (l : Literal) : (w.addFact l).world.GoalStands := by
  rcases addFact_cases w l with ⟨_, eq⟩ | ⟨_, _, eq⟩ | ⟨_, _, r, eq⟩ <;> rw [eq]
  · exact h
  · exact h.frame rfl rfl rfl
  · exact h

theorem removeFact (h : w.GoalStands) (l : Literal) : (w.removeFact l).world.GoalStands := by
  rcases removeFact_cases w l with ⟨_, eq⟩ | ⟨_, r, eq⟩ <;> rw [eq]
  · exact h.frame rfl rfl rfl
  · exact h

theorem addFluent (h : w.GoalStands) (f : Fluent) : (w.addFluent f).world.GoalStands := by
  rcases addFluent_cases w f with ⟨_, _, eq⟩ | ⟨_, _, eq⟩ | ⟨_, r, eq⟩ <;> rw [eq]
  · exact h.frame rfl rfl rfl
  · exact h.frame rfl rfl rfl
  · exact h

theorem updateFluent (h : w.GoalStands) (f : Fluent) : (w.updateFluent f).world.GoalStands := by
  rcases updateFluent_cases w f with ⟨_, _, eq⟩ | ⟨_, r, eq⟩ <;> rw [eq]
  · exact h.frame rfl rfl rfl
  · exact h

theorem removeFluent (h : w.GoalStands) (f : Fluent) : (w.removeFluent f).world.GoalStands := by
  rcases removeFluent_cases w f with ⟨_, eq⟩ | ⟨_, r, eq⟩ <;> rw [eq]
  · exact h.frame rfl rfl rfl
  · exact h

theorem store (h : w.GoalStands) (f : Formula) : (w.store f).world.GoalStands := by
  rcases store_cases w f with ⟨l, _, eq⟩ | ⟨_, eq⟩ <;> rw [eq]
  · exact h.addFact l
  · exact h.frame rfl rfl rfl

theorem addContingent (h : w.GoalStands) (f : Formula) :
    (w.addContingent f).world.GoalStands := by
  rcases addContingent_cases w f with ⟨_, _, _, eq⟩ | ⟨r, eq⟩ <;> rw [eq]
  · exact h.store _
  · exact h

theorem settle (h : w.GoalStands) (l : Literal) : (w.settle l).world.GoalStands := by
  rw [World.settle]
  exact storeOneOfs_induction (fun v ls _ _ hv => hv.store _) (h.frame rfl rfl rfl)

theorem removeContingent (h : w.GoalStands) (f : Formula) :
    (w.removeContingent f).world.GoalStands := by
  rcases removeContingent_cases w f with ⟨_, r, eq⟩ | ⟨_, eq⟩ | ⟨l, _, _, eq⟩ | eq <;> rw [eq]
  · exact h
  · exact h
  · refine settle ?_ l
    exact h.frame rfl rfl rfl
  · exact h.frame rfl rfl rfl

/-- **A goal that is set** has passed the check. -/
theorem setGoal (h : w.GoalStands) {f : Formula} (bare : f.BareLeaves) (acyclic : f.Acyclic) :
    (w.setGoal f).world.GoalStands := by
  rcases setGoal_cases w f with ⟨valid, eq⟩ | ⟨_, r, eq⟩ <;> rw [eq]
  · refine ⟨Formula.whole_renameAtoms (Formula.whole_of_acyclic acyclic) _ _, fun t shown => ?_⟩
    rw [world_accepted, term?_spellFormula] at shown
    obtain ⟨u, term, rfl⟩ := Option.map_eq_some_iff.1 shown
    rw [validFormula_of_term? term] at valid
    have stands := termStands_spell (Formula.bare_of_bareLeaves bare term) valid
    exact stands.mono rfl fun _ _ valid => valid
  · exact h

/-- **Without an object** the goal that is left stands. -/
theorem withoutObject (h : w.GoalStands) (object : String) :
    (w.withoutObject object).GoalStands := by
  cases names : w.goal.mentions object with
  | false =>
    -- the goal stays, and its atoms are valid without an object that they do not name
    have same : (w.withoutObject object).goal = w.goal := by simp [World.withoutObject, names]
    refine ⟨by rw [same]; exact h.whole, fun t shown => ?_⟩
    rw [same] at shown
    rw [Formula.mentions_of_term? shown] at names
    exact (h.stands t shown).mono rfl (validKind_withoutObject names)
  | true =>
    have pruned : (w.withoutObject object).goal = pruneGoal w.goal object := by
      simp [World.withoutObject, names]
    obtain ⟨n, root⟩ := Formula.exists_root_of_mentions names
    by_cases top : n.kind = .and ∨ n.kind = .or
    · rw [pruneGoal_of_junction root top] at pruned
      -- each part stood under the top, and those that are left stand under it again
      have parts := (termStands_node_iff top).1
        (h.stands _ (Formula.term?_of_whole h.whole root))
      refine ⟨by rw [pruned]; exact Formula.whole_junction _ _, fun t shown => ?_⟩
      rw [pruned] at shown
      have made := Formula.term?_junction_eq_some shown
      rw [made]
      refine (termStands_node_iff top).2 fun c mem => ?_
      obtain ⟨part, silent⟩ := List.mem_filter.1 mem
      exact (parts c part).mono rfl (validKind_withoutObject (by simpa using silent))
    · rw [pruneGoal_of_other root (not_or.1 top) names] at pruned
      refine ⟨by rw [pruned]; rfl, fun t shown => ?_⟩
      rw [pruned] at shown
      cases shown

theorem removeObject (h : w.GoalStands) (object : String) :
    (w.removeObject object).1.GoalStands := by
  rw [World.removeObject]
  split
  · refine addFacts_induction (fun v l _ hv => hv.addFact l) ?_
    exact (h.withoutObject object).frame rfl rfl rfl
  · exact h

end GoalStands

/-- **The goal stands** in every world that can be reached with formulas of bare leaves and
without cycles. -/
theorem kept_goalStands (d : Domain) : Kept d (fun f => f.BareLeaves ∧ f.Acyclic) GoalStands where
  empty := ⟨rfl, fun _ shown => nomatch shown⟩
  addObject e h := h.addObject e
  removeObject object h := h.removeObject object
  addFact l h := h.addFact l
  removeFact l h := h.removeFact l
  addFluent f h := h.addFluent f
  updateFluent f h := h.updateFluent f
  removeFluent f h := h.removeFluent f
  addContingent _ h := h.addContingent _
  removeContingent _ h := h.removeContingent _
  setGoal sound h := h.setGoal sound.1 sound.2
  clearGoal _ := ⟨rfl, fun _ shown => nomatch shown⟩

/-! ## Every run -/

/-- **The atoms of a formula** carry the domain's spelling of their names, and each of
their arguments names a stored object. -/
structure AtomsStand (w : World) (f : Formula) : Prop where
  literals : ∀ l ∈ f.literals, (∃ s, w.domain.predicate? l.name = some s ∧ s.name = l.name) ∧
    ∀ a ∈ l.args, ∃ e ∈ w.objects, e.name = a.name
  fluents : ∀ g ∈ f.fluents, (∃ s, w.domain.function? g.name = some s ∧ s.name = g.name) ∧
    ∀ a ∈ g.args, ∃ e ∈ w.objects, e.name = a.name

/-- The atoms of a term that stands do. -/
theorem TermStands.atomsStand {f : Formula} (stands : ∀ t, f.term? = some t → w.TermStands t) :
    w.AtomsStand f := by
  cases shown : f.term? with
  | none =>
    obtain ⟨literals, fluents⟩ := Formula.atoms_of_term?_eq_none shown
    constructor
    · simp [literals]
    · simp [fluents]
  | some t =>
    have h := stands t shown
    have valid := validKind_of_validTerm h.bare h.valid
    refine ⟨fun l mem => ?_, fun g mem => ?_⟩
    · rw [Formula.literals_of_term? shown] at mem
      have inside := Term.mem_literals.1 mem
      have spelled : w.domain.spellPredicate l.name = l.name :=
        congrArg Literal.name (NodeKind.predicate.inj (h.spelled _ inside))
      obtain ⟨s, declared, same, _⟩ := stands_of_validLiteral (valid _ inside) spelled
      refine ⟨⟨s, declared, same⟩, fun a named => ?_⟩
      obtain ⟨e, found⟩ := object?_of_validLiteral (valid _ inside) named
      exact ⟨e, mem_of_object? found⟩
    · rw [Formula.fluents_of_term? shown] at mem
      have inside := Term.mem_fluents.1 mem
      have spelled : w.domain.spellFunction g.name = g.name :=
        congrArg Fluent.name (NodeKind.function.inj (h.spelled _ inside))
      obtain ⟨s, declared, same, _⟩ := stands_of_validFluent (valid _ inside) spelled
      refine ⟨⟨s, declared, same⟩, fun a named => ?_⟩
      obtain ⟨e, found⟩ := object?_of_validFluent (valid _ inside) named
      exact ⟨e, mem_of_object? found⟩

/-- The term of a contingent fact stands. -/
theorem Over.termStands {f : Formula} {k : NodeKind} {ls : List Literal} (lit : w.Over f k ls) :
    w.TermStands (.flat k ls) := by
  have term := lit.lists.term?_eq lit.head.keyword?_ne_none
  refine ⟨Term.bare_flat lit.head.keyword?_ne_none ls, ?_, ?_⟩
  · rw [← validFormula_of_term? term]
    exact (validFormula_of_lists lit.lists lit.head).2 lit.valid
  · rw [Term.kinds_flat, List.forall_mem_cons]
    refine ⟨lit.head.rename _ _, List.forall_mem_map.2 fun l mem => ?_⟩
    exact congrArg NodeKind.predicate (spellLiteral_of_spelled (lit.spelled l mem))

/-- The usual grammar hands over formulas of bare leaves and without cycles. -/
theorem readerMakes_bareLeaves_and_acyclic :
    ReaderMakes fun f => f.BareLeaves ∧ f.Acyclic :=
  fun _ _ _ read => Reader.bareLeaves_and_acyclic_of_problem read

/-- The usual grammar hands over formulas of bare leaves. -/
theorem readerMakes_bareLeaves : ReaderMakes Formula.BareLeaves :=
  fun _ _ _ read f mem => (Reader.bareLeaves_and_acyclic_of_problem read f mem).1

theorem bareLeaves_and_acyclic_flat {k : NodeKind} (word : k.keyword? ≠ none) (ls : List Literal) :
    (Formula.ofTerm (.flat k ls)).BareLeaves ∧ (Formula.ofTerm (.flat k ls)).Acyclic :=
  ⟨Formula.bareLeaves_ofTerm (Term.bare_flat word ls), Formula.acyclic_ofTerm _⟩

/-- A domain with one predicate. -/
def clearOnly : Domain :=
  ⟨"d", [], [("object", none)], [("clear", ["object"])], [], []⟩

/-- Three objects, one of them clear, and the goal that two of them be. -/
def clearing : List Mutation :=
  [.addObject ⟨"a", "object"⟩, .addObject ⟨"b", "object"⟩, .addObject ⟨"c", "object"⟩,
    .addContingent (.oneOf [.positive "Clear" ["a"], .positive "clear" ["b"],
      .positive "clear" ["c"]]),
    .setGoal (.ofTerm (.flat .and [.positive "clear" ["a"], .positive "CLEAR" ["b"]]))]

theorem takes_clearing : ∀ m ∈ clearing, m.Takes clearOnly fun f => f.BareLeaves ∧ f.Acyclic := by
  simp only [clearing, List.forall_mem_cons, Mutation.Takes, Formula.oneOf_eq]
  refine ⟨trivial, trivial, trivial, ?_, ?_, by simp⟩
  · exact bareLeaves_and_acyclic_flat (by simp [NodeKind.keyword?]) _
  · exact bareLeaves_and_acyclic_flat (by simp [NodeKind.keyword?]) _

/-- **What every run keeps** of contingent facts and the goal, over any domain, if nothing
stands below the leaves of the formulas that are handed in and none of them has a cycle:
a contingent fact has a proper shape and is valid, a one-of has two literals at least, the
goal is valid, and all their atoms are spelled as the domain spells them and name objects
that are there. -/
theorem formulas_stand (d : Domain) (ms : List Mutation)
    (takes : ∀ m ∈ ms, m.Takes d fun f => f.BareLeaves ∧ f.Acyclic) :
    let w := (empty d).run ms
    (∀ f ∈ w.contingents, shapeFault? f = none ∧ w.validFormula f = true ∧
        ∀ n, f.root? = some n → n.kind = .oneOf → 2 ≤ n.children.length) ∧
      w.validFormula w.goal = true ∧ ∀ f ∈ w.goal :: w.contingents, w.AtomsStand f := by
  intro w
  have goal : w.GoalStands := (kept_goalStands d).run readerMakes_bareLeaves_and_acyclic takes
  have contingents : w.ContingentsStand := by
    refine (kept_contingentsStand d).run readerMakes_bareLeaves fun m mem => ?_
    exact (takes m mem).imp fun _ both => both.1
  refine ⟨fun f mem => ?_, ?_, List.forall_mem_cons.2 ⟨?_, fun f mem => ?_⟩⟩
  · obtain ⟨k, ls, lit, several⟩ := contingents f mem
    refine ⟨lit.lists.shapeFault?_eq_none lit.head,
      (validFormula_of_lists lit.lists lit.head).2 lit.valid, ?_⟩
    intro n root oneOf
    obtain ⟨m, found, rfl, each⟩ := lit.lists
    obtain rfl := Option.some.inj (root.symm.trans found)
    have count := several oneOf
    have nonzero := lit.head.count_ne_zero
    rw [each.length_eq]
    omega
  · cases shown : w.goal.term? with
    | none => rw [validFormula, Formula.term?_eq_none_iff.1 shown, Bool.true_or]
    | some t => rw [validFormula_of_term? shown, (goal.stands t shown).valid]
  · exact TermStands.atomsStand goal.stands
  · obtain ⟨k, ls, lit, _⟩ := contingents f mem
    refine TermStands.atomsStand fun t shown => ?_
    rw [lit.lists.term?_eq lit.head.keyword?_ne_none] at shown
    obtain rfl := Option.some.inj shown
    exact lit.termStands

/-- One of the objects is removed: the one-of and the goal have lost a literal each, and what
is left of them stands. -/
theorem formulas_stand_clearing :
    let w := (empty clearOnly).run (clearing ++ [.removeObject "a"])
    (w.contingents.length = 1 ∧ w.goal.size = 2) ∧ (∀ f ∈ w.contingents, shapeFault? f = none) ∧
      w.AtomsStand w.goal := by
  have takes : ∀ m ∈ clearing ++ [.removeObject "a"],
      m.Takes clearOnly fun f => f.BareLeaves ∧ f.Acyclic :=
    List.forall_mem_append.2 ⟨takes_clearing, List.forall_mem_singleton.2 trivial⟩
  obtain ⟨contingents, _, atoms⟩ := formulas_stand clearOnly _ takes
  refine ⟨by decide +kernel, fun f mem => (contingents f mem).1, ?_⟩
  exact atoms _ List.mem_cons_self

end World

end WorldModel
