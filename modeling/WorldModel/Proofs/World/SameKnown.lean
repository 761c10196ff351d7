/-
Goals and what two worlds have in common.

Truth is asked of the positive facts and of the values of fluents, and of nothing else in a world. So
two worlds in which the same atoms are stated and the same keys have the same values (`SameKnown`) agree
on every goal. That the entries may stand in any order is due to the invariant of the store: a value is
looked up as that of the first fluent of a key, and a key is never stored twice
(`Sound.valueOf_eq_some_iff`).

A goal, too, may be given in more than one way. It keeps its truth when its names are spelled otherwise,
for it is spelled as the domain has it before it is evaluated; and when its negated literals are written
as negations of the positive ones (`Term.writeNots`), which is how a reader takes them up from a text.
**Main statement.** `holds_of_sameKnown`: all of this at once, for any two worlds that runs reach.
-/
import WorldModel.Proofs.World.Lookup
import WorldModel.Proofs.World.Respelling
import WorldModel.Proofs.World.Truth

set_option autoImplicit false

namespace WorldModel

/-! ## Negated literals as negations -/

namespace Term

mutual

/-- **The term with its negated literals written out**: where a truth value is asked for, at the top and
below conjunctions, disjunctions and negations, a negated literal becomes the negation of the positive
one. What is compared, and what stands below a contingent head or an update, stays as it is. -/
def writeNots : Term → Term
  | node k cs =>
    match k with
    | .and | .or | .not => node k (writeNotsAll cs)
    | .predicate l =>
      if l.negated then node .not [node (.predicate { l with negated := false }) cs] else node k cs
    | _ => node k cs

/-- Several terms with their negated literals written out. -/
def writeNotsAll : List Term → List Term
  | [] => []
  | t :: ts => writeNots t :: writeNotsAll ts

end

theorem writeNotsAll_eq (ts : List Term) : writeNotsAll ts = ts.map writeNots := by
  induction ts with
  | nil => rfl
  | cons t ts ih => rw [writeNotsAll, ih, List.map_cons]

end Term

namespace World

variable {w v : World}

/-- **Writing negations out** changes no truth: the negation of the positive literal holds when the
negated literal does. -/
theorem holdsTerm_writeNots (w : World) (t : Term) :
    w.holdsTerm (t.writeNots.mapKinds w.spellKind) = w.holdsTerm (t.mapKinds w.spellKind) := by
  induction t with
  | node k cs ih =>
    -- the parts of a connective are as true as before, one by one
    have truths : ((cs.map Term.writeNots).map (Term.mapKinds w.spellKind)).map w.holdsTerm =
        (cs.map (Term.mapKinds w.spellKind)).map w.holdsTerm := by
      rw [List.map_map, List.map_map, List.map_map]
      exact List.map_congr_left ih
    rw [Term.writeNots.eq_def, Term.mapKinds_node]
    match k with
    | .and =>
      simp only [Term.writeNotsAll_eq, Term.mapKinds_node, spellKind, NodeKind.rename, holdsTerm,
        allHold_eq]
      exact congrArg (fun ts => List.all ts id) truths
    | .or =>
      simp only [Term.writeNotsAll_eq, Term.mapKinds_node, spellKind, NodeKind.rename, holdsTerm,
        someHolds_eq]
      exact congrArg (fun ts => List.any ts id) truths
    | .not =>
      simp only [Term.writeNotsAll_eq, Term.mapKinds_node, spellKind, NodeKind.rename, holdsTerm,
        soleFails_eq]
      exact congrArg (fun ts => ts == [false]) truths
    | .predicate l =>
      dsimp only
      by_cases negated : l.negated = true
      · -- the sign goes to the outside, and the atom that is looked for is the same
        rw [if_pos negated]
        simp only [Term.mapKinds_node, List.map_cons, List.map_nil, spellKind, NodeKind.rename,
          holdsTerm, soleFails, negated]
        have atom : w.statesAtom ⟨w.domain.spellPredicate l.name, l.args, false⟩ =
            w.statesAtom ⟨w.domain.spellPredicate l.name, l.args, true⟩ := rfl
        rw [atom]
        cases w.statesAtom ⟨w.domain.spellPredicate l.name, l.args, true⟩ <;> rfl
      · rw [if_neg negated, Term.mapKinds_node]
    | .unknown | .oneOf | .function _ | .expression _ | .update _ | .number _ =>
      simp only [Term.mapKinds_node]

/-! ## What is known -/

/-- The atoms of the positive facts, by name and names of the arguments. -/
def statedAtoms (w : World) : List (String × List String) :=
  (w.facts.filter fun l => !l.negated).map fun l => (l.name, l.args.map (·.name))

/-- The keys of the fluents with their values. -/
def assignments (w : World) : List ((String × List String) × Float) :=
  w.fluents.map fun f => ((f.name, f.args.map (·.name)), f.value)

/-- **The same is known in two worlds**: the same atoms are stated, and the same keys have the same
values. It does not matter where and how often an entry stands in a list, nor what else a world holds. -/
structure SameKnown (w v : World) : Prop where
  atoms : ∀ a, a ∈ w.statedAtoms ↔ a ∈ v.statedAtoms
  values : ∀ a, a ∈ w.assignments ↔ a ∈ v.assignments

theorem statesAtom_iff {l : Literal} :
    w.statesAtom l = true ↔ (l.name, l.args.map (·.name)) ∈ w.statedAtoms := by
  rw [statesAtom, List.any_eq_true, statedAtoms, List.mem_map]
  constructor
  · rintro ⟨s, stored, fits⟩
    obtain ⟨positive, same⟩ := Bool.and_eq_true_iff.1 fits
    rw [Literal.sameAtom, Bool.and_eq_true, sameArguments, beq_iff_eq, beq_iff_eq] at same
    exact ⟨s, List.mem_filter.2 ⟨stored, positive⟩, Prod.ext same.1 same.2⟩
  · rintro ⟨s, mem, same⟩
    obtain ⟨stored, positive⟩ := List.mem_filter.1 mem
    obtain ⟨name, args⟩ := Prod.mk.inj same
    refine ⟨s, stored, Bool.and_eq_true_iff.2 ⟨positive, ?_⟩⟩
    rw [Literal.sameAtom, sameArguments, name, args, beq_self_eq_true, beq_self_eq_true]
    rfl

/-- **Where no two entries fit**, the one that is found is any that fits. -/
theorem find?_eq_some_iff_of_apart {α : Type} {fits : α → Bool} {entries : List α}
    (apart : entries.Pairwise fun a b => ¬ (fits a = true ∧ fits b = true)) {a : α} :
    entries.find? fits = some a ↔ a ∈ entries ∧ fits a = true := by
  induction entries with
  | nil => simp
  | cons b entries ih =>
    obtain ⟨first, later⟩ := List.pairwise_cons.1 apart
    rw [List.mem_cons]
    by_cases here : fits b = true
    · rw [List.find?_cons_of_pos here]
      constructor
      · rintro same
        obtain rfl := Option.some.inj same
        exact ⟨.inl rfl, here⟩
      · rintro ⟨rfl | mem, there⟩
        · rfl
        · exact absurd ⟨here, there⟩ (first a mem)
    · rw [List.find?_cons_of_neg here, ih later]
      refine and_congr_left fun there => (or_iff_right ?_).symm
      rintro rfl
      exact here there

/-- **The value of a key** is that of the one fluent that is stored under it. -/
theorem Sound.valueOf_eq_some_iff (h : w.Sound) {f : Fluent} {x : Float} :
    w.valueOf f = some x ↔ ((f.name, f.args.map (·.name)), x) ∈ w.assignments := by
  have apart : w.fluents.Pairwise fun g k => ¬ (g.sameKey f = true ∧ k.sameKey f = true) := by
    refine h.fluents_distinct.imp fun {g k} differ => ?_
    rintro ⟨first, second⟩
    rw [Fluent.sameKey_congr first, Fluent.sameKey_comm, second] at differ
    cases differ
  rw [valueOf, Option.map_eq_some_iff, assignments, List.mem_map]
  constructor
  · rintro ⟨g, found, rfl⟩
    obtain ⟨stored, same⟩ := (find?_eq_some_iff_of_apart apart).1 found
    obtain ⟨name, args⟩ := Fluent.sameKey_iff.1 same
    exact ⟨g, stored, by rw [name, args]⟩
  · rintro ⟨g, stored, same⟩
    obtain ⟨key, value⟩ := Prod.mk.inj same
    obtain ⟨name, args⟩ := Prod.mk.inj key
    exact ⟨g, (find?_eq_some_iff_of_apart apart).2 ⟨stored, Fluent.sameKey_iff.2 ⟨name, args⟩⟩, value⟩

/-- **Where the same is known**, atoms are as true and fluents have the values that they have. -/
theorem SameKnown.agreesOn (same : w.SameKnown v) (here : w.Sound) (there : v.Sound)
    (k : NodeKind) : w.AgreesOn v k := by
  match k with
  | .predicate l =>
    rw [AgreesOn, Bool.eq_iff_iff, statesAtom_iff, statesAtom_iff]
    exact (same.atoms _).symm
  | .function f =>
    rw [AgreesOn]
    apply Option.ext
    intro x
    rw [there.valueOf_eq_some_iff, here.valueOf_eq_some_iff]
    exact (same.values _).symm
  | .and | .or | .not | .unknown | .oneOf | .expression _ | .update _ | .number _ => trivial

/-- Where the same is known, the same goals hold. -/
theorem SameKnown.holds_eq (same : w.SameKnown v) (here : w.Sound) (there : v.Sound)
    (domain : v.domain = w.domain) (f : Formula) : v.holds f = w.holds f := by
  cases shown : f.term? with
  | none => rw [holds_of_term?_eq_none shown, holds_of_term?_eq_none shown]
  | some t =>
    rw [holds_of_term? shown, holds_of_term? shown, spellKind_of_domain domain]
    exact holdsTerm_congr fun k _ => same.agreesOn here there k

/-! ## One goal in several forms -/

theorem holds_respelled {f g : Formula} (same : f.Respelled w.domain g) : w.holds g = w.holds f := by
  rw [holds, holds, spellFormula_eq same]

/-- A goal holds when it does with its negated literals written out. -/
theorem holds_writeNots {f g : Formula} (written : g.term? = f.term?.map Term.writeNots) :
    w.holds g = w.holds f := by
  cases shown : f.term? with
  | none =>
    rw [shown] at written
    rw [holds_of_term?_eq_none shown, holds_of_term?_eq_none written]
  | some t =>
    rw [shown] at written
    rw [holds_of_term? shown, holds_of_term? written, holdsTerm_writeNots]

/-- **What the truth of a goal depends on.** In two worlds that runs reach over one domain, and in which
the same atoms are stated and the same keys have the same values, every goal holds in both or in
neither; it may be spelled otherwise in one of them, or have its negated literals written out in any
numbering of its nodes. What objects there are, which facts are negated, what is contingent and which
goals are set does not matter. A goal with a cycle in it goes on for ever and is none. -/
theorem holds_of_sameKnown (d : Domain) (ms ns : List Mutation)
    (same : ((empty d).run ms).SameKnown ((empty d).run ns)) (f : Formula) :
    let w := (empty d).run ms
    let v := (empty d).run ns
    v.holds f = w.holds f ∧ (∀ g, f.Respelled d g → v.holds g = w.holds f) ∧
      ∀ g, g.term? = f.term?.map Term.writeNots → v.holds g = w.holds f := by
  intro w v
  have here : w.domain = d := domain_run (empty d) ms
  have there : v.domain = d := domain_run (empty d) ns
  have both : ∀ g, v.holds g = w.holds g :=
    same.holds_eq (sound_run d ms) (sound_run d ns) (there.trans here.symm)
  refine ⟨both f, fun g respelled => ?_, fun g written => ?_⟩
  · rw [both g]
    rw [← here] at respelled
    exact holds_respelled respelled
  · rw [both g]
    exact holds_writeNots written

/-- The same facts and levels as in `levelled`, come by in another order, and more besides: an object,
a negated fact, a contingent one and a goal. -/
def levelledOtherwise : List Mutation :=
  [.addObject ⟨"c", "object"⟩, .addObject ⟨"b", "object"⟩, .addFluent (.ground "level" ["b"] 2),
    .addObject ⟨"a", "object"⟩, .addFact { Literal.positive "clear" ["b"] with negated := true },
    .addFluent (.ground "level" ["a"] 7), .addContingent (.unknown (.positive "clear" ["c"])),
    .addFact (.positive "CLEAR" ["a"]), .updateFluent (.ground "LEVEL" ["a"] 1),
    .setGoal (.ofLiteral (.positive "clear" ["c"]))]

/-- That one object is not clear and that the level of the other is low holds in both worlds, with the
predicate in capitals as well, and with a negation in the place of the negated literal. -/
theorem holds_of_sameKnown_levelled :
    let w := (empty levels).run levelled
    let v := (empty levels).run levelledOtherwise
    let clear (name : String) : Literal := Literal.positive name ["b"]
    let negated (name : String) : Term := .node (.predicate { clear name with negated := true }) []
    let negation : Term := .node .not [.node (.predicate (clear "clear")) []]
    let goal (t : Term) : Formula := .ofTerm (.node .and [t, .node (.expression .less)
      [.node (.function (.ground "level" ["a"] 0)) [], .node (.number 2) []]])
    w.SameKnown v ∧ w.holds (goal (negated "clear")) = true ∧
      v.holds (goal (negated "clear")) = true ∧ v.holds (goal (negated "CLEAR ")) = true ∧
      v.holds (goal negation) = true := by
  intro w v clear negated negation goal
  have atoms : w.statedAtoms = v.statedAtoms := by decide +kernel
  have swapped : w.assignments.Perm v.assignments := by
    have here : w.assignments = [(("level", ["a"]), 1), (("level", ["b"]), 2)] := by decide +kernel
    have there : v.assignments = [(("level", ["b"]), 2), (("level", ["a"]), 1)] := by decide +kernel
    rw [here, there]
    exact .swap _ _ _
  have same : w.SameKnown v := ⟨fun a => by rw [atoms], fun a => swapped.mem_iff⟩
  obtain ⟨both, respelled, written⟩ :=
    holds_of_sameKnown levels levelled levelledOtherwise same (goal (negated "clear"))
  have holds : w.holds (goal (negated "clear")) = true := by decide +kernel
  have name : levels.SamePredicate "clear" "CLEAR " :=
    Domain.samePredicate_of_fold (by decide +kernel) (by decide +kernel)
  -- one node is spelled otherwise, and all others are the same
  have spelled : (goal (negated "clear")).Respelled levels (goal (negated "CLEAR ")) :=
    .cons ⟨rfl, rfl, .same _⟩ <| .cons ⟨rfl, rfl, .predicate ⟨name, rfl, rfl⟩⟩ <|
      .cons ⟨rfl, rfl, .same _⟩ <| .cons ⟨rfl, rfl, .same _⟩ <| .cons ⟨rfl, rfl, .same _⟩ .nil
  have writes : (goal negation).term? = (goal (negated "clear")).term?.map Term.writeNots := by
    rw [Formula.term?_ofTerm, Formula.term?_ofTerm]
    rfl
  exact ⟨same, holds, both.trans holds, (respelled _ spelled).trans holds,
    (written _ writes).trans holds⟩

end World

end WorldModel
