/-
The order in which objects are removed.

Two removals touch the same things from two sides: a one-of may name both objects in
different literals, so that in one order it becomes a fact that the second removal takes
away again, and in the other it is shortened twice. That the order makes no difference is
proved place by place. A contingent fact has a fate when an object goes (`Pruned`), and its
fate goes on when a second one does (`Pruned.without`); the two steps commute
(`without_pruneContingent_comm`), and from this both what stays of the contingent facts and
what becomes a fact of them is the same. The goal is a filter on the children of its top,
however often it is put together again (`goalWithout_comm`).

**Main statement.** `removeObject_comm`: after any run over formulas without cycles, objects,
fluents, contingent facts and the goal are the same in both orders, and the same facts are
stated. Facts may come in another order, because a one-of becomes a fact at another time.
What stands below the leaves of formulas makes no difference: a literal that is left of a
one-of and not valid names neither object, and so is refused at either time.
-/
import WorldModel.Proofs.World.Lookup
import WorldModel.Proofs.World.Truth

set_option autoImplicit false

namespace WorldModel

/-! ## Contingent facts -/

namespace Pruned

/-- What becomes of a fate when another object goes. -/
def without (object : String) : Pruned → Pruned
  | kept f => pruneContingent object f
  | folded l => if l.mentions object then dropped else folded l
  | dropped => dropped

/-- The fate of a one-of of which these literals are left. -/
def ofDisjuncts : List Literal → Pruned
  | [] => dropped
  | [l] => folded l
  | ls => kept (.oneOf ls)

end Pruned

theorem disjunctsLeft_of_silent {object : String} {f : Formula}
    (silent : f.mentions object = false) : disjunctsLeft object f = f.literals := by
  rw [Formula.mentions, Bool.or_eq_false_iff, List.any_eq_false] at silent
  rw [disjunctsLeft, List.filter_eq_self]
  intro l mem
  simpa using silent.1 l mem

theorem pruneContingent_of_silent {object : String} {f : Formula}
    (silent : f.mentions object = false) : pruneContingent object f = .kept f := by
  rw [pruneContingent, silent]
  rfl

theorem pruneContingent_of_mentions {object : String} {f : Formula}
    (names : f.mentions object = true) : pruneContingent object f =
      if f.rootTag? = some .oneOf then .ofDisjuncts (disjunctsLeft object f) else .dropped := by
  rw [pruneContingent, names]
  by_cases oneOf : f.rootTag? = some .oneOf
  · rw [if_neg (by decide), if_pos (by simp [oneOf]), if_pos oneOf, Pruned.ofDisjuncts.eq_def]
    rfl
  · rw [if_neg (by decide), if_neg (by simpa using oneOf), if_neg oneOf]

/-- **A one-of that is left** loses the literals that name the second object as well. -/
theorem without_ofDisjuncts (object : String) (ls : List Literal) :
    (Pruned.ofDisjuncts ls).without object =
      .ofDisjuncts (ls.filter fun l => !l.mentions object) := by
  match ls with
  | [] => rfl
  | [l] => cases names : l.mentions object <;> simp [Pruned.ofDisjuncts, Pruned.without, names]
  | l :: m :: ls =>
    have tag : (Formula.oneOf (l :: m :: ls)).rootTag? = some .oneOf :=
      (Formula.lists_oneOf _).rootTag?_eq
    have literals : (Formula.oneOf (l :: m :: ls)).literals = l :: m :: ls :=
      (Formula.lists_oneOf _).literals_eq (.oneOf (by simp))
    change pruneContingent object (.oneOf (l :: m :: ls)) = _
    cases names : (Formula.oneOf (l :: m :: ls)).mentions object with
    | false =>
      have left := disjunctsLeft_of_silent names
      rw [disjunctsLeft, literals] at left
      rw [pruneContingent_of_silent names, left]
      rfl
    | true =>
      rw [pruneContingent_of_mentions names, if_pos tag, disjunctsLeft, literals]

/-- What does not name the object has no fate that it bears on. -/
theorem without_pruneContingent_of_silent {a : String} {f : Formula}
    (silent : f.mentions a = false) (b : String) :
    (pruneContingent b f).without a = pruneContingent b f := by
  cases names : f.mentions b with
  | false =>
    rw [pruneContingent_of_silent names]
    exact pruneContingent_of_silent silent
  | true =>
    rw [pruneContingent_of_mentions names]
    split
    · have whole := disjunctsLeft_of_silent silent
      rw [disjunctsLeft] at whole
      rw [without_ofDisjuncts, disjunctsLeft, List.filter_comm, whole]
    · rfl

/-- **The order of two removals** makes no difference to the fate of a contingent fact. -/
theorem without_pruneContingent_comm (a b : String) (f : Formula) :
    (pruneContingent a f).without b = (pruneContingent b f).without a := by
  cases namesA : f.mentions a with
  | false =>
    rw [without_pruneContingent_of_silent namesA, pruneContingent_of_silent namesA]
    rfl
  | true =>
    cases namesB : f.mentions b with
    | false =>
      rw [without_pruneContingent_of_silent namesB, pruneContingent_of_silent namesB]
      rfl
    | true =>
      rw [pruneContingent_of_mentions namesA, pruneContingent_of_mentions namesB]
      split
      · rw [without_ofDisjuncts, without_ofDisjuncts, disjunctsLeft, disjunctsLeft,
          List.filter_comm]
      · rfl

/-- What stays after two removals has stayed after the first. -/
theorem Pruned.kept?_without (object : String) (p : Pruned) :
    (p.without object).kept? = p.kept?.bind fun f => (pruneContingent object f).kept? := by
  cases p with
  | kept f => rfl
  | folded l => cases names : l.mentions object <;> simp [without, names, kept?]
  | dropped => rfl

/-- What becomes a fact by two removals does so by the first, and does not name the second
object, or has stayed then and does so by the second. -/
theorem Pruned.folded?_without_iff (object : String) (p : Pruned) (l : Literal) :
    (p.without object).folded? = some l ↔ (p.folded? = some l ∧ l.mentions object = false) ∨
      ∃ f, p.kept? = some f ∧ (pruneContingent object f).folded? = some l := by
  cases p with
  | kept f => simp [without, kept?, folded?]
  | folded m =>
    cases names : m.mentions object with
    | false =>
      simp only [without, names, Bool.false_eq_true, if_false, folded?, kept?, Option.some.injEq]
      constructor
      · rintro rfl
        exact .inl ⟨rfl, names⟩
      · rintro (⟨same, _⟩ | ⟨f, none_, _⟩)
        · exact same
        · cases none_
    | true =>
      simp only [without, names, if_true, folded?, kept?, Option.some.injEq]
      constructor
      · intro none_
        cases none_
      · rintro (⟨rfl, silent⟩ | ⟨f, none_, _⟩)
        · rw [names] at silent
          cases silent
        · cases none_
  | dropped => simp [without, kept?, folded?]

/-- Neither what stays nor what becomes a fact names the object. -/
theorem silent_of_ofDisjuncts {object : String} {ls : List Literal}
    (silent : ∀ l ∈ ls, l.mentions object = false) :
    (∀ g, (Pruned.ofDisjuncts ls).kept? = some g → g.mentions object = false) ∧
      ∀ l, (Pruned.ofDisjuncts ls).folded? = some l → l.mentions object = false := by
  match ls with
  | [] => exact ⟨fun _ none_ => (nomatch none_), fun _ none_ => nomatch none_⟩
  | [l] =>
    refine ⟨fun _ none_ => (nomatch none_), fun m folded => ?_⟩
    obtain rfl := Option.some.inj folded
    exact silent l (List.mem_singleton_self l)
  | l :: m :: ls =>
    refine ⟨fun g kept => ?_, fun _ none_ => nomatch none_⟩
    obtain rfl := Option.some.inj kept
    rw [(Formula.lists_oneOf _).mentions_eq (.oneOf (by simp)), List.any_eq_false]
    exact fun l mem => by simp [silent l mem]

theorem silent_of_pruneContingent (object : String) (f : Formula) :
    (∀ g, (pruneContingent object f).kept? = some g → g.mentions object = false) ∧
      ∀ l, (pruneContingent object f).folded? = some l → l.mentions object = false := by
  cases names : f.mentions object with
  | false =>
    rw [pruneContingent_of_silent names]
    refine ⟨fun g kept => ?_, fun _ none_ => nomatch none_⟩
    obtain rfl := Option.some.inj kept
    exact names
  | true =>
    rw [pruneContingent_of_mentions names]
    split
    · refine silent_of_ofDisjuncts fun l mem => ?_
      simpa using (List.mem_filter.1 mem).2
    · exact ⟨fun _ none_ => (nomatch none_), fun _ none_ => nomatch none_⟩

/-- What becomes a fact by two removals names neither object. -/
theorem silent_of_folded?_without {a b : String} {f : Formula} {l : Literal}
    (fate : ((pruneContingent a f).without b).folded? = some l) :
    l.mentions a = false ∧ l.mentions b = false := by
  have second : ∀ {a b : String}, ((pruneContingent a f).without b).folded? = some l →
      l.mentions b = false := by
    intro a b fate
    rcases (Pruned.folded?_without_iff b _ l).1 fate with ⟨_, silent⟩ | ⟨g, _, later⟩
    · exact silent
    · exact (silent_of_pruneContingent b g).2 l later
  refine ⟨second (a := b) ?_, second fate⟩
  rw [without_pruneContingent_comm]
  exact fate

/-! ## The goal -/

/-- The goal without the parts that name the object, if it names it at all. -/
def goalWithout (object : String) (goal : Formula) : Formula :=
  if goal.mentions object then pruneGoal goal object else goal

theorem goalWithout_of_silent {object : String} {goal : Formula}
    (silent : goal.mentions object = false) : goalWithout object goal = goal := by
  rw [goalWithout, silent]
  rfl

/-- **A goal of parts** loses those that name the object. -/
theorem goalWithout_junction {k : NodeKind} (top : k = .and ∨ k = .or) (ts : List Term)
    (object : String) : goalWithout object (.junction k ts) =
      .junction k (ts.filter fun t => !t.mentions object) := by
  cases names : (Formula.junction k ts).mentions object with
  | false =>
    rw [goalWithout_of_silent names]
    rw [Formula.mentions_junction_eq_false_iff top] at names
    rw [List.filter_eq_self.2 fun t mem => by simp [names t mem]]
  | true =>
    have nonempty : ts ≠ [] := by
      rintro rfl
      rw [Formula.mentions_of_term?_eq_none rfl] at names
      cases names
    obtain ⟨t, us, rfl⟩ := List.exists_cons_of_ne_nil nonempty
    have root := Formula.root?_ofTerm (.node k (t :: us))
    -- the children of the root are shown as the parts that were put together
    have parts := (Formula.term?_of_whole (Formula.whole_ofTerm (.node k (t :: us))) root).symm
    rw [Formula.term?_ofTerm] at parts
    have children := (Term.node.inj (Option.some.inj parts)).2
    rw [goalWithout, if_pos names]
    exact (pruneGoal_of_junction root top object).trans (by rw [children]; rfl)

theorem goalWithout_of_junction {goal : Formula} {n : Node} (root : goal.root? = some n)
    (top : n.kind = .and ∨ n.kind = .or) {object : String} (names : goal.mentions object = true) :
    goalWithout object goal =
      .junction n.kind ((n.children.filterMap goal.unfold).filter fun t => !t.mentions object) := by
  rw [goalWithout, if_pos names, pruneGoal_of_junction root top]

theorem goalWithout_of_other {goal : Formula} {n : Node} (root : goal.root? = some n)
    (other : n.kind ≠ .and ∧ n.kind ≠ .or) {object : String} (names : goal.mentions object = true) :
    goalWithout object goal = .empty := by
  rw [goalWithout, if_pos names, pruneGoal_of_other root other names]

/-- A goal that does not name the object does not after another removal. -/
theorem mentions_goalWithout {goal : Formula} (whole : goal.Whole) {a : String}
    (silent : goal.mentions a = false) (b : String) :
    (goalWithout b goal).mentions a = false := by
  cases names : goal.mentions b with
  | false =>
    rw [goalWithout_of_silent names]
    exact silent
  | true =>
    obtain ⟨n, root⟩ := Formula.exists_root_of_mentions names
    by_cases top : n.kind = .and ∨ n.kind = .or
    · rw [Formula.mentions_of_term? (Formula.term?_of_whole whole root),
        Term.mentions_node_eq_false_iff top] at silent
      rw [goalWithout_of_junction root top names, Formula.mentions_junction_eq_false_iff top]
      exact fun t mem => silent t (List.mem_of_mem_filter mem)
    · rw [goalWithout_of_other root (not_or.1 top) names]
      exact Formula.mentions_of_term?_eq_none rfl a

/-- **The order of two removals** makes no difference to a goal that is shown whole. -/
theorem goalWithout_comm {goal : Formula} (whole : goal.Whole) (a b : String) :
    goalWithout b (goalWithout a goal) = goalWithout a (goalWithout b goal) := by
  cases namesA : goal.mentions a with
  | false =>
    rw [goalWithout_of_silent (mentions_goalWithout whole namesA b), goalWithout_of_silent namesA]
  | true =>
    cases namesB : goal.mentions b with
    | false =>
      rw [goalWithout_of_silent (mentions_goalWithout whole namesB a), goalWithout_of_silent namesB]
    | true =>
      obtain ⟨n, root⟩ := Formula.exists_root_of_mentions namesA
      by_cases top : n.kind = .and ∨ n.kind = .or
      · rw [goalWithout_of_junction root top namesA, goalWithout_of_junction root top namesB,
          goalWithout_junction top, goalWithout_junction top, List.filter_comm]
      · rw [goalWithout_of_other root (not_or.1 top) namesA,
          goalWithout_of_other root (not_or.1 top) namesB]
        rfl

namespace World

variable {w v : World} {a b object : String}

/-! ## Facts -/

/-- Adding facts one by one makes the valid ones stated. -/
theorem hasFact_addFacts (w : World) (ls : List Literal) (m : Literal) :
    (w.addFacts ls).hasFact m = true ↔ w.hasFact m = true ∨
      ∃ l ∈ ls, w.validLiteral l = true ∧ (w.spellLiteral m).sameFact (w.spellLiteral l) = true := by
  induction ls generalizing w with
  | nil => simp [addFacts]
  | cons l ls ih =>
    have step : w.addFacts (l :: ls) = (w.addFact l).world.addFacts ls := rfl
    have domain := domain_addFact w l
    -- neither validity nor spelling looks at facts
    have spell : (w.addFact l).world.spellLiteral = w.spellLiteral := by
      funext k
      rw [spellLiteral, spellLiteral, domain]
    have valid : (w.addFact l).world.validLiteral = w.validLiteral :=
      funext fun k => validLiteral_congr domain (objects_addFact w l) k
    rw [step, ih, hasFact_addFact, spell, valid, List.exists_mem_cons_iff, or_assoc]

/-- A literal that does not name the object is as valid without it as it was with it. -/
theorem validLiteral_withoutObject_eq {l : Literal} (silent : l.mentions object = false) :
    (w.withoutObject object).validLiteral l = w.validLiteral l := by
  rw [Bool.eq_iff_iff]
  refine ⟨fun valid => ?_, ContingentsStand.validLiteral_withoutObject silent⟩
  refine validLiteral_mono (w := w.withoutObject object) (v := w) rfl (fun c mem e found => ?_) valid
  -- the object that is found has another name than the one that is gone
  have other : c.name ≠ object := by simpa using List.any_eq_false.1 silent c mem
  exact (object?_eraseP other).symm.trans found

/-- Facts that do not name the object are stated without it as they were with it. -/
theorem hasFact_withoutObject (w : World) (object : String) (m : Literal) :
    (w.withoutObject object).hasFact m = (w.hasFact m && !m.mentions object) := by
  have left : (w.withoutObject object).hasFact m =
      (w.facts.filter fun l => !l.mentions object).any (·.sameFact (w.spellLiteral m)) := rfl
  rw [left, hasFact]
  induction w.facts with
  | nil => rfl
  | cons l facts ih =>
    cases states : l.sameFact (w.spellLiteral m) with
    | false => cases names : l.mentions object <;> simp [states, names, ih]
    | true =>
      have same : l.mentions object = m.mentions object :=
        argumentsMention_congr (Literal.sameFact_iff.1 states).2.2 object
      cases names : l.mentions object <;> simp [states, names, ih, ← same]

/-! ## The whole removal -/

/-- **What a removal leaves**, in a form that a second one can be put behind. -/
structure Removal (w v : World) (object : String) : Prop where
  domain : v.domain = w.domain
  objects : v.objects = w.objects.eraseP (·.name == object)
  fluents : v.fluents = w.fluents.filter fun f => !f.mentions object
  contingents : v.contingents = w.contingents.filterMap fun f => (pruneContingent object f).kept?
  goal : v.goal = goalWithout object w.goal
  facts : ∀ m, v.hasFact m = true ↔ (w.hasFact m = true ∧ m.mentions object = false) ∨
    ∃ f ∈ w.contingents, ∃ l, (pruneContingent object f).folded? = some l ∧
      w.validLiteral l = true ∧ (w.spellLiteral m).sameFact (w.spellLiteral l) = true

/-- The removal of an object that is there leaves this, in every world. -/
theorem removal_of_stored (stored : w.objects.any (·.name == object) = true) :
    Removal w (w.removeObject object).1 object := by
  -- the world to which the last literals of one-ofs are added
  obtain ⟨u, left⟩ : ∃ u : World, u = { w.withoutObject object with
    contingents := w.contingents.filterMap fun f => (pruneContingent object f).kept? } := ⟨_, rfl⟩
  have removed : (w.removeObject object).1 =
      u.addFacts (w.contingents.filterMap fun f => (pruneContingent object f).folded?) := by
    rw [removeObject, if_pos stored, left, pruneContingents_eq_fates]
    rfl
  have valid : u.validLiteral = (w.withoutObject object).validLiteral := by
    funext l
    rw [left]
    exact validLiteral_congr rfl rfl l
  have stated : u.hasFact = (w.withoutObject object).hasFact := by rw [left]; rfl
  have spell : u.spellLiteral = w.spellLiteral := by rw [left]; rfl
  have facts : ∀ m, (w.removeObject object).1.hasFact m = true ↔
      (w.hasFact m = true ∧ m.mentions object = false) ∨
        ∃ f ∈ w.contingents, ∃ l, (pruneContingent object f).folded? = some l ∧
          w.validLiteral l = true ∧ (w.spellLiteral m).sameFact (w.spellLiteral l) = true := by
    intro m
    rw [removed, hasFact_addFacts, stated, valid, spell, hasFact_withoutObject, Bool.and_eq_true,
      Bool.not_eq_true']
    refine or_congr_right ⟨?_, ?_⟩
    · rintro ⟨l, mem, isValid, same⟩
      obtain ⟨f, inside, fate⟩ := List.mem_filterMap.1 mem
      rw [validLiteral_withoutObject_eq ((silent_of_pruneContingent object f).2 l fate)] at isValid
      exact ⟨f, inside, l, fate, isValid, same⟩
    · rintro ⟨f, inside, l, fate, isValid, same⟩
      rw [← validLiteral_withoutObject_eq ((silent_of_pruneContingent object f).2 l fate)] at isValid
      exact ⟨l, List.mem_filterMap.2 ⟨f, inside, fate⟩, isValid, same⟩
  rw [removed, addFacts_frame, left] at facts ⊢
  exact ⟨rfl, rfl, rfl, rfl, rfl, facts⟩

theorem Removal.spellLiteral_eq (h : Removal w v object) : v.spellLiteral = w.spellLiteral := by
  funext l
  rw [spellLiteral, spellLiteral, h.domain]

theorem Removal.validLiteral_eq (h : Removal w v object) {l : Literal}
    (silent : l.mentions object = false) : v.validLiteral l = w.validLiteral l := by
  have here := validLiteral_congr (w := w.withoutObject object) h.domain h.objects l
  rw [here, validLiteral_withoutObject_eq silent]

/-- **What two removals make stated** is what was stated and names neither object, and what
becomes a fact by the fate of a contingent fact under both. -/
theorem Removal.hasFact_iff {u : World} (first : Removal w v a) (second : Removal v u b)
    (m : Literal) : u.hasFact m = true ↔
      (w.hasFact m = true ∧ m.mentions a = false ∧ m.mentions b = false) ∨
        ∃ f ∈ w.contingents, ∃ l, ((pruneContingent a f).without b).folded? = some l ∧
          w.validLiteral l = true ∧ (w.spellLiteral m).sameFact (w.spellLiteral l) = true := by
  have names : ∀ l, (w.spellLiteral m).sameFact (w.spellLiteral l) = true →
      m.mentions b = l.mentions b :=
    fun l same => argumentsMention_congr (Literal.sameFact_iff.1 same).2.2 b
  rw [second.facts, first.facts, first.spellLiteral_eq, first.contingents]
  constructor
  · rintro (⟨⟨stated, silentA⟩ | ⟨f, inside, l, fate, valid, same⟩, silentB⟩ |
      ⟨g, inside, l, fate, valid, same⟩)
    · exact .inl ⟨stated, silentA, silentB⟩
    · refine .inr ⟨f, inside, l, ?_, valid, same⟩
      exact (Pruned.folded?_without_iff b _ l).2 (.inl ⟨fate, (names l same).symm.trans silentB⟩)
    · obtain ⟨f, inside, stays⟩ := List.mem_filterMap.1 inside
      have both : ((pruneContingent a f).without b).folded? = some l :=
        (Pruned.folded?_without_iff b _ l).2 (.inr ⟨g, stays, fate⟩)
      rw [first.validLiteral_eq (silent_of_folded?_without both).1] at valid
      exact .inr ⟨f, inside, l, both, valid, same⟩
  · rintro (⟨stated, silentA, silentB⟩ | ⟨f, inside, l, both, valid, same⟩)
    · exact .inl ⟨.inl ⟨stated, silentA⟩, silentB⟩
    · rcases (Pruned.folded?_without_iff b _ l).1 both with ⟨fate, silentB⟩ | ⟨g, stays, fate⟩
      · exact .inl ⟨.inr ⟨f, inside, l, fate, valid, same⟩, (names l same).trans silentB⟩
      · refine .inr ⟨g, List.mem_filterMap.2 ⟨f, inside, stays⟩, l, fate, ?_, same⟩
        rw [first.validLiteral_eq (silent_of_folded?_without both).1]
        exact valid

/-! ## Either order -/

/-- **Two worlds are the same but for the order of their facts**: each fact of one is stated
by one of the other, and there are as many. -/
structure SameButOrder (u v : World) : Prop where
  domain : u.domain = v.domain
  objects : u.objects = v.objects
  fluents : u.fluents = v.fluents
  contingents : u.contingents = v.contingents
  goal : u.goal = v.goal
  count : u.facts.length = v.facts.length
  left : ∀ l ∈ u.facts, ∃ m ∈ v.facts, l.sameFact m = true
  right : ∀ m ∈ v.facts, ∃ l ∈ u.facts, m.sameFact l = true

theorem SameButOrder.refl (w : World) : SameButOrder w w :=
  ⟨rfl, rfl, rfl, rfl, rfl, rfl, fun l mem => ⟨l, mem, sameFact_self l⟩,
    fun l mem => ⟨l, mem, sameFact_self l⟩⟩

/-- Of worlds that state the same each fact is stated in the other one. -/
theorem Sound.exists_sameFact {u : World} (sound : u.Sound) (domain : u.domain = v.domain)
    (stated : ∀ m, u.hasFact m = true → v.hasFact m = true) :
    ∀ l ∈ u.facts, ∃ m ∈ v.facts, l.sameFact m = true := by
  intro l mem
  have spelled := sound.facts_spelled l mem
  have here : u.hasFact l = true := by
    rw [hasFact, spellLiteral_of_spelled spelled]
    exact List.any_eq_true.2 ⟨l, mem, sameFact_self l⟩
  obtain ⟨m, inside, same⟩ := List.any_eq_true.1 (stated l here)
  rw [spellLiteral_of_spelled (domain ▸ spelled), Literal.sameFact_comm] at same
  exact ⟨m, inside, same⟩

/-- Where no fact is stored twice, those that state the same are as many. -/
theorem length_facts_eq {u : World} (soundU : u.Sound) (soundV : v.Sound)
    (left : ∀ l ∈ u.facts, ∃ m ∈ v.facts, l.sameFact m = true)
    (right : ∀ m ∈ v.facts, ∃ l ∈ u.facts, m.sameFact l = true) :
    u.facts.length = v.facts.length := by
  -- a fact is told by its sign, its name and the names of its arguments
  let identity : Literal → Bool × String × List String :=
    fun l => (l.negated, l.name, l.args.map (·.name))
  have same_iff : ∀ l m : Literal, l.sameFact m = true ↔ identity l = identity m := by
    intro l m
    rw [Literal.sameFact_iff, Prod.mk.injEq, Prod.mk.injEq]
  have distinct : ∀ {w : World}, w.Sound → (w.facts.map identity).Nodup := by
    intro w sound
    refine List.pairwise_map.2 (sound.facts_distinct.imp fun {l m} differ same => ?_)
    rw [(same_iff l m).2 same] at differ
    cases differ
  have perm : (u.facts.map identity).Perm (v.facts.map identity) := by
    refine (List.perm_ext_iff_of_nodup (distinct soundU) (distinct soundV)).2 fun i => ?_
    simp only [List.mem_map]
    constructor
    · rintro ⟨l, mem, rfl⟩
      obtain ⟨m, inside, same⟩ := left l mem
      exact ⟨m, inside, ((same_iff l m).1 same).symm⟩
    · rintro ⟨m, mem, rfl⟩
      obtain ⟨l, inside, same⟩ := right m mem
      exact ⟨l, inside, ((same_iff m l).1 same).symm⟩
  simpa using perm.length_eq

/-- **Two removals in either order** leave the same but for the order of the facts. -/
theorem Removal.sameButOrder {va vb u : World} (whole : w.goal.Whole) (differ : a ≠ b)
    (firstA : Removal w va a) (thenB : Removal va v b) (firstB : Removal w vb b)
    (thenA : Removal vb u a) (soundV : v.Sound) (soundU : u.Sound) : SameButOrder v u := by
  have domain : v.domain = u.domain := by
    rw [thenB.domain, firstA.domain, thenA.domain, firstB.domain]
  have stated : ∀ m, v.hasFact m = true ↔ u.hasFact m = true := by
    intro m
    rw [firstA.hasFact_iff thenB, firstB.hasFact_iff thenA]
    simp only [without_pruneContingent_comm a b, and_comm (a := m.mentions a = false)]
  have left := soundV.exists_sameFact domain fun m => (stated m).1
  have right := soundU.exists_sameFact domain.symm fun m => (stated m).2
  refine ⟨domain, ?_, ?_, ?_, ?_, length_facts_eq soundV soundU left right, left, right⟩
  · rw [thenB.objects, firstA.objects, thenA.objects, firstB.objects]
    refine List.eraseP_comm fun e _ => ?_
    simp only [beq_iff_eq]
    exact not_and_or.1 fun both => differ (both.1.symm.trans both.2)
  · rw [thenB.fluents, firstA.fluents, thenA.fluents, firstB.fluents, List.filter_comm]
  · rw [thenB.contingents, firstA.contingents, thenA.contingents, firstB.contingents,
      List.filterMap_filterMap, List.filterMap_filterMap]
    refine List.filterMap_congr fun f _ => ?_
    rw [← Pruned.kept?_without, ← Pruned.kept?_without, without_pruneContingent_comm]
  · rw [thenB.goal, firstA.goal, thenA.goal, firstB.goal, goalWithout_comm whole]

theorem removeObject_of_missing (missing : w.objects.any (·.name == object) = false) :
    (w.removeObject object).1 = w := by
  rw [removeObject, missing]
  rfl

/-- A removal takes no object of another name. -/
theorem any_objects_removeObject (differ : b ≠ a) :
    (w.removeObject a).1.objects.any (·.name == b) = w.objects.any (·.name == b) := by
  cases stored : w.objects.any (·.name == a) with
  | false => rw [removeObject_of_missing stored]
  | true =>
    have found := congrArg Option.isSome (object?_eraseP (w := w) differ)
    rw [object?, object?, Bool.eq_iff_iff, List.find?_isSome, List.find?_isSome] at found
    rw [(removal_of_stored stored).objects, Bool.eq_iff_iff, List.any_eq_true, List.any_eq_true]
    exact found

/-- **The order in which two objects are removed** makes no difference, after any run over any
domain in which no formula that is handed in has a cycle: objects, fluents, contingent facts
and the goal that are left are the same, and so are the facts, but for their order. -/
theorem removeObject_comm (d : Domain) (ms : List Mutation)
    (takes : ∀ m ∈ ms, m.Takes d Formula.Acyclic) (a b : String) :
    let w := (empty d).run ms
    SameButOrder ((w.removeObject a).1.removeObject b).1 ((w.removeObject b).1.removeObject a).1 := by
  intro w
  have sound : w.Sound := sound_run d ms
  have whole : w.goal.Whole := Formula.whole_of_acyclic (formulasNamed_run d takes).acyclic
  by_cases differ : a = b
  · rw [differ]
    exact .refl _
  have other : b ≠ a := fun same => differ same.symm
  cases storedA : w.objects.any (·.name == a) with
  | false =>
    -- without the one object there is one removal only
    have missing : (w.removeObject b).1.objects.any (·.name == a) = false := by
      rw [any_objects_removeObject differ, storedA]
    rw [removeObject_of_missing storedA, removeObject_of_missing missing]
    exact .refl _
  | true =>
    cases storedB : w.objects.any (·.name == b) with
    | false =>
      have missing : (w.removeObject a).1.objects.any (·.name == b) = false := by
        rw [any_objects_removeObject other, storedB]
      rw [removeObject_of_missing storedB, removeObject_of_missing missing]
      exact .refl _
    | true =>
      have laterB : (w.removeObject a).1.objects.any (·.name == b) = true := by
        rw [any_objects_removeObject other, storedB]
      have laterA : (w.removeObject b).1.objects.any (·.name == a) = true := by
        rw [any_objects_removeObject differ, storedA]
      exact Removal.sameButOrder whole differ (removal_of_stored storedA)
        (removal_of_stored laterB) (removal_of_stored storedB) (removal_of_stored laterA)
        ((sound.removeObject a).removeObject b) ((sound.removeObject b).removeObject a)

/-- Two one-ofs, of which each removal turns one into a fact. -/
def crossing : List Mutation :=
  [.addObject ⟨"a", "object"⟩, .addObject ⟨"b", "object"⟩, .addObject ⟨"c", "object"⟩,
    .addObject ⟨"e", "object"⟩,
    .addContingent (.oneOf [.positive "Clear" ["a"], .positive "clear" ["c"]]),
    .addContingent (.oneOf [.positive "clear" ["b"], .positive "clear" ["e"]])]

/-- The facts of the two orders can differ as lists: the one-of that is shortened first becomes
the first fact. -/
theorem removeObject_comm_crossing :
    let w := (empty clearOnly).run crossing
    let v := ((w.removeObject "a").1.removeObject "b").1
    let u := ((w.removeObject "b").1.removeObject "a").1
    (v.facts.map (·.args.map (·.name)) = [["c"], ["e"]] ∧
      u.facts.map (·.args.map (·.name)) = [["e"], ["c"]]) ∧ SameButOrder v u := by
  have takes : ∀ m ∈ crossing, m.Takes clearOnly Formula.Acyclic := by
    simp only [crossing, List.forall_mem_cons, Mutation.Takes, Formula.oneOf_eq]
    exact ⟨trivial, trivial, trivial, trivial, Formula.acyclic_ofTerm _, Formula.acyclic_ofTerm _,
      by simp⟩
  exact ⟨by decide +kernel, removeObject_comm clearOnly crossing takes "a" "b"⟩

end World

end WorldModel
