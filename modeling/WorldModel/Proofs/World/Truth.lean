/-
What the truth of a goal depends on.

Truth is asked of a term from its top downwards, and the world has a say in it at the atoms
only: a literal holds by what is stated of its atom, and a fluent counts with its value. So
two worlds that agree on the atoms of a term (`AgreesOn`) agree on the term
(`holdsTerm_congr`), whatever else they hold.

**Main statement.** `holds_removeObject`: the removal of an object takes away what names it
and nothing else, so a goal that does not name it holds afterwards if it held before, and
only then. The one thing that a removal can bring in is the last literal of a one-of, and
there is none where no one-of names the object. The goal of the world loses the parts that
name the object, so a conjunction that held still holds.
-/
import WorldModel.Proofs.World.Cascade
import WorldModel.Proofs.World.Named
import WorldModel.World.Satisfaction

set_option autoImplicit false

namespace WorldModel

/-- Which objects arguments name depends on their names. -/
theorem argumentsMention_congr {as bs : List Argument} (same : as.map (·.name) = bs.map (·.name))
    (object : String) : argumentsMention as object = argumentsMention bs object := by
  have names : ∀ cs : List Argument,
      argumentsMention cs object = (cs.map (·.name)).any (· == object) := by
    intro cs
    rw [argumentsMention, List.any_map]
    rfl
  rw [names, names, same]

namespace World

variable {w v : World}

/-! ## Worlds that agree on atoms -/

/-- The two worlds say the same of the kind, if it is an atom. -/
def AgreesOn (w v : World) : NodeKind → Prop
  | .predicate l => v.statesAtom l = w.statesAtom l
  | .function f => v.valueOf f = w.valueOf f
  | _ => True

theorem allHold_eq (w : World) (ts : List Term) : w.allHold ts = (ts.map w.holdsTerm).all id := by
  induction ts with
  | nil => rfl
  | cons t ts ih => rw [allHold, ih, List.map_cons, List.all_cons, id]

theorem someHolds_eq (w : World) (ts : List Term) :
    w.someHolds ts = (ts.map w.holdsTerm).any id := by
  induction ts with
  | nil => rfl
  | cons t ts ih => rw [someHolds, ih, List.map_cons, List.any_cons, id]

theorem soleFails_eq (w : World) (ts : List Term) :
    w.soleFails ts = (ts.map w.holdsTerm == [false]) := by
  match ts with
  | [] => rfl
  | [t] => cases holds : w.holdsTerm t <;> simp [soleFails, holds]
  | _ :: _ :: _ => rw [soleFails]; simp

/-- **The value of a term** depends on the atoms in it. -/
theorem value_congr {t : Term} (agree : ∀ k ∈ t.kinds, w.AgreesOn v k) : v.value t = w.value t := by
  induction t with
  | node k cs ih =>
    obtain ⟨top, below⟩ := Term.forall_kinds_node.1 agree
    have each : ∀ c ∈ cs, v.value c = w.value c := fun c mem => ih c mem (below c mem)
    match k, cs with
    | .number _, _ => rw [value, value]
    | .function _, _ =>
      rw [value, value]
      exact top
    | .expression _, [t] => rw [value, value, each t (by simp)]
    | .expression _, [t, u] => rw [value, value, each t (by simp), each u (by simp)]
    | .expression _, [] | .expression _, _ :: _ :: _ :: _ => rw [value, value] <;> simp
    | .and, _ | .or, _ | .not, _ | .unknown, _ | .oneOf, _ | .predicate _, _ | .update _, _ =>
      rw [value, value] <;> simp

theorem comparisonHolds_congr {op : Operator} {cs : List Term}
    (each : ∀ c ∈ cs, v.value c = w.value c) :
    v.comparisonHolds op cs = w.comparisonHolds op cs := by
  match cs with
  | [t, u] => rw [comparisonHolds, comparisonHolds, each t (by simp), each u (by simp)]
  | [] | [_] | _ :: _ :: _ :: _ => rfl

/-- **The truth of a term** depends on the atoms in it. -/
theorem holdsTerm_congr {t : Term} (agree : ∀ k ∈ t.kinds, w.AgreesOn v k) :
    v.holdsTerm t = w.holdsTerm t := by
  induction t with
  | node k cs ih =>
    obtain ⟨top, below⟩ := Term.forall_kinds_node.1 agree
    have truths : cs.map v.holdsTerm = cs.map w.holdsTerm :=
      List.map_congr_left fun c mem => ih c mem (below c mem)
    match k with
    | .and => rw [holdsTerm, holdsTerm, allHold_eq, allHold_eq, truths]
    | .or => rw [holdsTerm, holdsTerm, someHolds_eq, someHolds_eq, truths]
    | .not => rw [holdsTerm, holdsTerm, soleFails_eq, soleFails_eq, truths]
    | .predicate l =>
      have stated : v.statesAtom l = w.statesAtom l := top
      rw [holdsTerm, holdsTerm, stated]
    | .expression op =>
      -- what is compared are values, whether or not the sides hold
      have values : ∀ c ∈ cs, v.value c = w.value c := fun c mem => value_congr (below c mem)
      rw [holdsTerm, holdsTerm, comparisonHolds_congr values]
    | .unknown | .oneOf | .function _ | .update _ | .number _ =>
      rw [holdsTerm, holdsTerm] <;> simp

/-! ## Goals -/

theorem holds_of_term?_eq_none {f : Formula} (h : f.term? = none) : w.holds f = true := by
  have none_ : (w.spellFormula f).term? = none := by
    rw [term?_spellFormula, h, Option.map_none]
  simp only [holds, none_]

theorem holds_of_term? {f : Formula} {t : Term} (h : f.term? = some t) :
    w.holds f = w.holdsTerm (t.mapKinds w.spellKind) := by
  have shown : (w.spellFormula f).term? = some (t.mapKinds w.spellKind) := by
    rw [term?_spellFormula, h, Option.map_some]
  simp only [holds, shown]

/-- A conjunction holds when each of its parts does. -/
theorem holds_conj_iff {f : Formula} {cs : List Term} (h : f.term? = some (.node .and cs)) :
    w.holds f = true ↔ ∀ c ∈ cs, w.holdsTerm (c.mapKinds w.spellKind) = true := by
  have top : w.spellKind .and = .and := rfl
  rw [holds_of_term? h, Term.mapKinds_node, top, holdsTerm, allHold_eq, List.map_map,
    List.all_map, List.all_eq_true]
  rfl

theorem spellKind_of_domain (domain : v.domain = w.domain) : v.spellKind = w.spellKind := by
  funext k
  rw [spellKind, spellKind, domain]

/-! ## Without an object -/

section Removal

variable {object : String}

/-- Where no one-of names the object there is no last literal of one. -/
theorem filterMap_lastDisjunct?_eq_nil
    (free : ∀ f ∈ w.contingents, f.rootTag? = some .oneOf → f.mentions object = false) :
    w.contingents.filterMap (lastDisjunct? object) = [] := by
  apply List.filterMap_eq_nil_iff.2
  intro f mem
  rw [lastDisjunct?]
  split
  · apply if_neg
    rintro ⟨names, oneOf⟩
    rw [free f mem oneOf] at names
    cases names
  · rfl

/-- **An atom that does not name the object** is stated as before, and has the value that it
had before. -/
theorem agreesOn_withoutObject {k : NodeKind} (silent : k.Silent object) :
    w.AgreesOn (w.withoutObject object) k := by
  match k with
  | .predicate l =>
    have kept : ∀ s : Literal, s.sameAtom l = true → s.mentions object = false := by
      intro s same
      rw [Literal.sameAtom, Bool.and_eq_true, sameArguments, beq_iff_eq, beq_iff_eq] at same
      exact (argumentsMention_congr same.2 object).trans silent
    rw [AgreesOn, statesAtom, statesAtom, withoutObject, List.any_filter]
    congr 1
    funext s
    cases same : s.sameAtom l with
    | false => simp
    | true => simp [kept s same]
  | .function f =>
    have kept : ∀ g : Fluent, g.sameKey f = true → g.mentions object = false := by
      intro g same
      exact (argumentsMention_congr (Fluent.sameKey_iff.1 same).2 object).trans silent
    rw [AgreesOn, valueOf, valueOf, withoutObject, List.find?_filter]
    congr 2
    funext g
    cases same : g.sameKey f with
    | false => simp
    | true => simp [kept g same]
  | .and | .or | .not | .unknown | .oneOf | .expression _ | .update _ | .number _ => trivial

/-- **The removal of an object** that no one-of names brings in no fact. -/
theorem agreesOn_removeObject
    (free : ∀ f ∈ w.contingents, f.rootTag? = some .oneOf → f.mentions object = false)
    {k : NodeKind} (silent : k.Silent object) : w.AgreesOn (w.removeObject object).1 k := by
  rw [removeObject]
  split
  · have same := agreesOn_withoutObject (w := w) silent
    have folded : (w.withoutObject object).contingents.filterMap (lastDisjunct? object) = [] :=
      filterMap_lastDisjunct?_eq_nil free
    rw [pruneContingents_eq, folded]
    -- contingent facts are not asked
    cases k <;> exact same
  · cases k <;> first | rfl | trivial

/-- A term that does not name the object holds as before. -/
theorem holdsTerm_removeObject
    (free : ∀ f ∈ w.contingents, f.rootTag? = some .oneOf → f.mentions object = false)
    {t : Term} (silent : t.mentions object = false) :
    (w.removeObject object).1.holdsTerm (t.mapKinds w.spellKind) =
      w.holdsTerm (t.mapKinds w.spellKind) := by
  apply holdsTerm_congr
  intro k mem
  rw [Term.kinds_mapKinds] at mem
  obtain ⟨l, inside, rfl⟩ := List.mem_map.1 mem
  apply agreesOn_removeObject free
  -- spelling leaves arguments alone
  have quiet := Term.mentions_eq_false_iff_silent.1 silent l inside
  cases l <;> exact quiet

/-- A removal prunes the goal, or there is no such object and it does nothing. -/
theorem goal_removeObject (w : World) (object : String) :
    (w.removeObject object).1 = w ∨
      (w.removeObject object).1.goal = (w.withoutObject object).goal := by
  rw [removeObject]
  split
  · right
    rw [pruneContingents_eq, addFacts_frame]
  · exact .inl rfl

/-- **What is left of a conjunction that held** holds: each part that is left did, and does
not name the object. -/
theorem holds_pruneGoal
    (free : ∀ f ∈ w.contingents, f.rootTag? = some .oneOf → f.mentions object = false)
    {goal : Formula} (acyclic : goal.Acyclic) (tag : goal.rootTag? = some .and)
    (held : w.holds goal = true) :
    (w.removeObject object).1.holds (pruneGoal goal object) = true := by
  obtain ⟨n, root, kind⟩ := Option.map_eq_some_iff.1 tag
  have top : n.kind = .and := NodeKind.eq_and_of_tag kind
  have shown := Formula.term?_of_whole (Formula.whole_of_acyclic acyclic) root
  rw [top] at shown
  have parts := (holds_conj_iff shown).1 held
  rw [pruneGoal_of_junction root (.inl top), top]
  generalize left : (n.children.filterMap goal.unfold).filter (fun t => !t.mentions object) = ts
  by_cases none_ : ts = []
  · rw [none_]
    exact holds_of_term?_eq_none rfl
  · apply (holds_conj_iff (Formula.term?_junction .and none_)).2
    intro c mem
    rw [← left] at mem
    obtain ⟨part, silent⟩ := List.mem_filter.1 mem
    rw [spellKind_of_domain (domain_removeObject w object),
      holdsTerm_removeObject free (by simpa using silent)]
    exact parts c part

end Removal

/-- **The removal of an object that no one-of names** does not bear on goals that do not
name it: each of them holds afterwards if and only if it held before. So if the goal of the
world is a conjunction that held, the goal that is left holds; a goal with a cycle in it goes
on for ever and is none. This is so in every world, reached or not. -/
theorem holds_removeObject (w : World) (object : String)
    (free : ∀ f ∈ w.contingents, f.rootTag? = some .oneOf → f.mentions object = false) :
    let v := (w.removeObject object).1
    (∀ f : Formula, f.mentions object = false → v.holds f = w.holds f) ∧
      (w.goal.Acyclic → w.goal.rootTag? = some .and → w.holds w.goal = true →
        v.holds v.goal = true) := by
  intro v
  have spell : v.spellKind = w.spellKind := spellKind_of_domain (domain_removeObject w object)
  have frame : ∀ f : Formula, f.mentions object = false → v.holds f = w.holds f := by
    intro f silent
    cases shown : f.term? with
    | none => rw [holds_of_term?_eq_none shown, holds_of_term?_eq_none shown]
    | some t =>
      rw [Formula.mentions_of_term? shown] at silent
      rw [holds_of_term? shown, holds_of_term? shown, spell]
      exact holdsTerm_removeObject free silent
  refine ⟨frame, fun acyclic tag held => ?_⟩
  rcases goal_removeObject w object with same | goal
  · rw [show v = w from same]
    exact held
  · rw [show v.goal = _ from goal]
    cases names : w.goal.mentions object with
    | false =>
      have kept : (w.withoutObject object).goal = w.goal := by simp [withoutObject, names]
      rw [kept, frame w.goal names]
      exact held
    | true =>
      have pruned : (w.withoutObject object).goal = pruneGoal w.goal object := by
        simp [withoutObject, names]
      rw [pruned]
      exact holds_pruneGoal free acyclic tag held

/-- Two objects that are clear, one of which may be, and the goal that both are. -/
def bothClear : List Mutation :=
  [.addObject ⟨"a", "object"⟩, .addObject ⟨"b", "object"⟩, .addFact (.positive "clear" ["a"]),
    .addFact (.positive "clear" ["b"]), .addContingent (.unknown (.positive "clear" ["a"])),
    .setGoal (.ofTerm (.flat .and [.positive "clear" ["a"], .positive "CLEAR" ["b"]]))]

/-- One of the objects is removed, and with it a part of the goal. What is left of it holds,
and that the other object is clear holds as it did. -/
theorem holds_removeObject_bothClear :
    let w := (empty clearOnly).run bothClear
    let v := (w.removeObject "a").1
    (w.goal.size, v.goal.size, v.facts.length) = (3, 2, 1) ∧ v.holds v.goal = true ∧
      v.holds (.ofLiteral (.positive "clear" ["b"])) =
        w.holds (.ofLiteral (.positive "clear" ["b"])) := by
  intro w v
  have takes : ∀ m ∈ bothClear, m.Takes clearOnly Formula.Acyclic := by
    simp only [bothClear, List.forall_mem_cons]
    exact ⟨trivial, trivial, trivial, trivial, Formula.acyclic_ofTerm _, Formula.acyclic_ofTerm _,
      by simp⟩
  have acyclic : w.goal.Acyclic := (formulasNamed_run clearOnly takes).acyclic
  have free : ∀ f ∈ w.contingents, f.rootTag? = some .oneOf → f.mentions "a" = false := by
    decide +kernel
  obtain ⟨frame, goal⟩ := holds_removeObject w "a" free
  refine ⟨by decide +kernel, goal acyclic (by decide +kernel) (by decide +kernel), ?_⟩
  exact frame _ (by decide +kernel)

end World

end WorldModel
