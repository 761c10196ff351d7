/-
Goals that more knowledge does not spoil.

More facts and more fluents make more literals and comparisons hold, and a negation turns this
around. So it matters under how many negations a literal or a comparison stands. If it is an even
number for all of them, where the sign of a literal counts as one more, a goal that holds goes on to
hold whatever else becomes known (`Positive`); if it is an odd number for all of them, a goal that
does not hold goes on not to hold (`Negative`). **Main statement.** `holds_mono`.

Both are proved at once, for each negation on the way down leads from the one to the other
(`holdsTerm_mono`). It helps that what is undefined never holds and has no value: a value that a
comparison needs either is there and stays what it is, or comes in later and can only help
(`value_mono`). What never holds, such as a negation of two parts or a contingent head, plays no part.
-/
import Mathlib.Algebra.Ring.Parity
import WorldModel.Proofs.World.Lookup
import WorldModel.Proofs.World.Truth

set_option autoImplicit false

namespace WorldModel

open Relation (ReflTransGen)

/-! ## Under negations -/

namespace NodeKind

/-- How many negations the kind is. -/
def nots : NodeKind → Nat
  | not => 1
  | _ => 0

/-- **The kind follows** what becomes known: a literal is not negated where truth is to rise with it,
and is negated where truth is to fall; and a comparison stands only where truth is to rise. -/
def Follows (rising : Prop) : NodeKind → Prop
  | predicate l => l.negated = false ↔ rising
  | expression op => op.isComparison = true → rising
  | _ => True

end NodeKind

namespace Formula

/-- **The node stands under so many negations**, on some way down from the root. -/
inductive UnderNots (f : Formula) : Nat → Nat → Prop
  | root : UnderNots f 0 0
  | child {count id c : Nat} {n : Node} (above : UnderNots f count id) (found : f.node? id = some n)
      (mem : c ∈ n.children) : UnderNots f (count + n.kind.nots) c

/-- All that the root reaches follows, also what stands below a literal or a comparison. Whether truth
is to rise at a node depends on the number of negations above it. -/
def Signed (rising : Nat → Prop) (f : Formula) : Prop :=
  ∀ count id n, f.UnderNots count id → f.node? id = some n → n.kind.Follows (rising count)

/-- **A positive formula**: its literals stand under an even number of negations if they are not
negated, under an odd number if they are, and its comparisons under an even number. -/
def Positive (f : Formula) : Prop :=
  f.Signed Even

/-- **A negative formula**: everywhere it is the other way around. -/
def Negative (f : Formula) : Prop :=
  f.Signed Odd

end Formula

/-- A term under so many negations all of which follows. -/
inductive Term.Signed (rising : Nat → Prop) : Nat → Term → Prop
  | node {count : Nat} {k : NodeKind} {cs : List Term} (top : k.Follows (rising count))
      (below : ∀ c ∈ cs, Signed rising (count + k.nots) c) : Signed rising count (.node k cs)

section Signed

variable {rising : Nat → Prop}

theorem Formula.UnderNots.reached {f : Formula} {count id : Nat} (h : f.UnderNots count id) :
    ReflTransGen f.Child 0 id := by
  induction h with
  | root => exact .refl
  | child _ found mem ih => exact ih.tail ⟨_, found, mem⟩

/-- **Without cycles** it makes no difference whether the ways down are those of the formula or those
of its term. -/
theorem Formula.signed_iff {f : Formula} (acyclic : f.Acyclic) :
    f.Signed rising ↔ ∀ t, f.term? = some t → t.Signed rising 0 := by
  constructor
  · intro signed
    have all : ∀ (t : Term) (count id : Nat), f.UnderNots count id → f.unfold id = some t →
        t.Signed rising count := by
      intro t
      induction t with
      | node k cs ih =>
        intro count id under shown
        obtain ⟨n, found⟩ : ∃ n, f.node? id = some n :=
          ⟨_, Array.getElem?_eq_getElem (exists_unfold_iff.1 ⟨_, shown⟩)⟩
        have same := Option.some.inj (shown.symm.trans (unfold_of_reached acyclic under.reached found))
        obtain ⟨rfl, rfl⟩ := Term.node.inj same
        refine .node (signed count id n under found) fun c mem => ?_
        obtain ⟨a, child, below⟩ := List.mem_filterMap.1 mem
        exact ih c mem _ a (under.child found child) below
    exact fun t shown => all t 0 0 .root shown
  · intro signed
    have all : ∀ count id, f.UnderNots count id → ∀ t, f.unfold id = some t →
        t.Signed rising count := by
      intro count id under
      induction under with
      | root => exact signed
      | @child count id c n above found mem ih =>
        intro t shown
        rcases ih _ (unfold_of_reached acyclic above.reached found) with ⟨_, below⟩
        exact below t (List.mem_filterMap.2 ⟨c, mem, shown⟩)
    intro count id n under found
    rcases all count id under _ (unfold_of_reached acyclic under.reached found) with ⟨top, _⟩
    exact top

theorem Formula.signed_ofTerm {t : Term} (signed : t.Signed rising 0) :
    (Formula.ofTerm t).Signed rising := by
  refine (Formula.signed_iff (Formula.acyclic_ofTerm t)).2 fun u shown => ?_
  rw [Formula.term?_ofTerm] at shown
  rwa [← Option.some.inj shown]

theorem Term.signed_node_iff {count : Nat} {k : NodeKind} {cs : List Term} :
    (Term.node k cs).Signed rising count ↔
      k.Follows (rising count) ∧ ∀ c ∈ cs, c.Signed rising (count + k.nots) := by
  constructor
  · rintro (⟨top, below⟩)
    exact ⟨top, below⟩
  · rintro ⟨top, below⟩
    exact .node top below

/-- Spelling changes no sign. -/
theorem Term.Signed.mapKinds_spellKind (w : World) {t : Term} {count : Nat}
    (signed : t.Signed rising count) : (t.mapKinds w.spellKind).Signed rising count := by
  induction signed with
  | @node count k cs top _ ih =>
    have nots : (w.spellKind k).nots = k.nots := by cases k <;> rfl
    have follows : (w.spellKind k).Follows (rising count) := by cases k <;> exact top
    rw [mapKinds_node]
    refine .node follows (List.forall_mem_map.2 fun c mem => ?_)
    rw [nots]
    exact ih c mem

end Signed

namespace World

/-! ## Worlds in which more is known -/

variable {w v : World}

/-- **More is known**: what is stated is stated still, and what has a value has the same value. -/
structure MoreKnown (w v : World) : Prop where
  domain : v.domain = w.domain
  stated : ∀ l, w.statesAtom l = true → v.statesAtom l = true
  valued : ∀ f x, w.valueOf f = some x → v.valueOf f = some x

theorem MoreKnown.refl (w : World) : w.MoreKnown w :=
  ⟨rfl, fun _ => id, fun _ _ => id⟩

/-- A fact that is added is known besides. One that is negated states nothing. -/
theorem moreKnown_addFact (w : World) (l : Literal) : w.MoreKnown (w.addFact l).world := by
  rcases addFact_cases w l with ⟨_, same⟩ | ⟨_, _, added⟩ | ⟨_, _, r, refused⟩
  · rw [same]
    exact .refl w
  · rw [added]
    refine ⟨rfl, fun s stated => ?_, fun _ _ => id⟩
    have either : (accepted { w with facts := w.facts ++ [w.spellLiteral l] }).world.statesAtom s =
        (w.statesAtom s || [w.spellLiteral l].any fun s' => !s'.negated && s'.sameAtom s) :=
      List.any_append
    rw [either, stated, Bool.true_or]
  · rw [refused]
    exact .refl w

/-- A fluent that was not stored has no part in the values that were there. -/
theorem moreKnown_addFluent {f : Fluent} (new : w.hasFluent f = false) :
    w.MoreKnown (w.addFluent f).world := by
  rcases addFluent_cases w f with ⟨_, stored, _⟩ | ⟨_, _, added⟩ | ⟨_, r, refused⟩
  · rw [new] at stored
    cases stored
  · rw [added]
    refine ⟨rfl, fun _ => id, fun g x value => ?_⟩
    obtain ⟨s, first, rfl⟩ := Option.map_eq_some_iff.1 value
    have still : (w.fluents ++ [w.spellFluent f]).find? (·.sameKey g) = some s := by
      rw [List.find?_append, first, Option.some_or]
    exact congrArg (Option.map Fluent.value) still
  · rw [refused]
    exact .refl w

/-! ## Values and truth -/

/-- **A value stays**: where more is known, terms that have a value have the same. -/
theorem value_mono (more : w.MoreKnown v) {t : Term} {x : Float} (value : w.value t = some x) :
    v.value t = some x := by
  induction t generalizing x with
  | node k cs ih =>
    match k, cs with
    | .number _, _ =>
      rw [World.value] at value ⊢
      exact value
    | .function f, _ =>
      rw [World.value] at value ⊢
      exact more.valued f x value
    | .expression op, [t] =>
      rw [World.value] at value ⊢
      split at value
      · next sub =>
        obtain ⟨y, part, rfl⟩ := Option.map_eq_some_iff.1 value
        rw [if_pos sub, ih t (by simp) part, Option.map_some]
      · cases value
    | .expression op, [t, u] =>
      rw [World.value] at value ⊢
      obtain ⟨y, left, value⟩ := Option.bind_eq_some_iff.1 value
      obtain ⟨z, right, value⟩ := Option.bind_eq_some_iff.1 value
      exact Option.bind_eq_some_iff.2
        ⟨y, ih t (by simp) left, Option.bind_eq_some_iff.2 ⟨z, ih u (by simp) right, value⟩⟩
    | .expression _, [] | .expression _, _ :: _ :: _ :: _ =>
      rw [World.value] at value
      · cases value
      all_goals simp
    | .and, _ | .or, _ | .not, _ | .unknown, _ | .oneOf, _ | .predicate _, _ | .update _, _ =>
      rw [World.value] at value
      · cases value
      all_goals simp

/-- What is defined compares as before. -/
theorem comparisonHolds_mono (more : w.MoreKnown v) {op : Operator} {cs : List Term}
    (compared : w.comparisonHolds op cs = true) : v.comparisonHolds op cs = true := by
  match cs with
  | [t, u] =>
    rw [comparisonHolds] at compared ⊢
    cases left : w.value t with
    | none =>
      rw [left] at compared
      cases compared
    | some x =>
      cases right : w.value u with
      | none =>
        rw [left, right] at compared
        cases compared
      | some y =>
        rw [left, right] at compared
        rw [value_mono more left, value_mono more right]
        exact compared
  | [] | [_] | _ :: _ :: _ :: _ => cases compared

/-! ## Connectives -/

section Connectives

variable {cs : List Term} (each : ∀ c ∈ cs, w.holdsTerm c = true → v.holdsTerm c = true)
include each

theorem allHold_mono (all : w.allHold cs = true) : v.allHold cs = true := by
  rw [allHold_eq, List.all_map, List.all_eq_true] at all ⊢
  exact fun c mem => each c mem (all c mem)

theorem someHolds_mono (some_ : w.someHolds cs = true) : v.someHolds cs = true := by
  rw [someHolds_eq, List.any_map, List.any_eq_true] at some_ ⊢
  obtain ⟨c, mem, holds⟩ := some_
  exact ⟨c, mem, each c mem holds⟩

/-- A negation that holds later holds before. -/
theorem soleFails_anti (fails : v.soleFails cs = true) : w.soleFails cs = true := by
  match cs with
  | [] => cases fails
  | [c] =>
    have before : w.holdsTerm c = false := by
      by_contra holds
      have later := each c (by simp) (by simpa using holds)
      simp [soleFails, later] at fails
    simp [soleFails, before]
  | _ :: _ :: _ => simp [soleFails] at fails

end Connectives

/-- **Truth rises or falls** with what is known, by the number of negations on the way down, where
each of them turns it around. -/
theorem holdsTerm_mono (more : w.MoreKnown v) {rising : Nat → Prop}
    (turns : ∀ count, rising (count + 1) ↔ ¬ rising count) {t : Term} {count : Nat}
    (signed : t.Signed rising count) :
    (rising count → w.holdsTerm t = true → v.holdsTerm t = true) ∧
      (¬ rising count → v.holdsTerm t = true → w.holdsTerm t = true) := by
  induction signed with
  | @node count k cs top _ ih =>
    match k with
    | .and =>
      simp only [holdsTerm]
      exact ⟨fun up => allHold_mono fun c mem => (ih c mem).1 up,
        fun down => allHold_mono fun c mem => (ih c mem).2 down⟩
    | .or =>
      simp only [holdsTerm]
      exact ⟨fun up => someHolds_mono fun c mem => (ih c mem).1 up,
        fun down => someHolds_mono fun c mem => (ih c mem).2 down⟩
    | .not =>
      simp only [holdsTerm]
      refine ⟨fun up => soleFails_anti fun c mem => (ih c mem).2 fun odd => ?_,
        fun down => soleFails_anti fun c mem => (ih c mem).1 ((turns count).2 down)⟩
      exact (turns count).1 odd up
    | .predicate l =>
      have stated := more.stated l
      simp only [holdsTerm]
      refine ⟨fun up holds => ?_, fun down holds => ?_⟩
      · rw [top.2 up, Bool.bne_false] at holds ⊢
        exact stated holds
      · have negated : l.negated = true := by simpa using mt top.1 down
        rw [negated, Bool.bne_true, Bool.not_eq_true'] at holds ⊢
        by_contra before
        rw [stated (by simpa using before)] at holds
        cases holds
    | .expression op =>
      simp only [holdsTerm, Bool.and_eq_true]
      exact ⟨fun _ holds => ⟨holds.1, comparisonHolds_mono more holds.2⟩,
        fun down holds => absurd (top holds.1) down⟩
    | .unknown | .oneOf | .function _ | .update _ | .number _ => simp [holdsTerm]

/-! ## Goals -/

/-- **Where more is known** a positive goal holds if it held before, and a negative one held before
if it holds. -/
theorem holds_of_moreKnown (more : w.MoreKnown v) {f : Formula} (acyclic : f.Acyclic) :
    (f.Positive → w.holds f = true → v.holds f = true) ∧
      (f.Negative → v.holds f = true → w.holds f = true) := by
  cases shown : f.term? with
  | none => simp [holds_of_term?_eq_none shown]
  | some t =>
    have spelled : v.spellKind = w.spellKind := spellKind_of_domain more.domain
    rw [holds_of_term? shown, holds_of_term? shown, spelled]
    constructor
    · intro positive
      have signed := ((Formula.signed_iff acyclic).1 positive t shown).mapKinds_spellKind w
      exact (holdsTerm_mono more (fun _ => Nat.even_add_one) signed).1 Even.zero
    · intro negative
      have signed := ((Formula.signed_iff acyclic).1 negative t shown).mapKinds_spellKind w
      refine (holdsTerm_mono more (fun _ => ?_) signed).2 (by decide)
      rw [Nat.odd_add_one]

/-- **Goals and what becomes known.** A positive goal that holds goes on to hold when a fact is
added, or a fluent that was not stored; a negative goal that does not hold goes on not to hold. It
does not matter whether the addition is accepted, and it is so in every world, reached or not. -/
theorem holds_mono (w : World) (f : Formula) (acyclic : f.Acyclic) :
    (f.Positive → w.holds f = true →
      (∀ l, (w.addFact l).world.holds f = true) ∧
        ∀ g, w.hasFluent g = false → (w.addFluent g).world.holds f = true) ∧
    (f.Negative → w.holds f = false →
      (∀ l, (w.addFact l).world.holds f = false) ∧
        ∀ g, w.hasFluent g = false → (w.addFluent g).world.holds f = false) := by
  constructor
  · intro positive holds
    exact ⟨fun l => (holds_of_moreKnown (moreKnown_addFact w l) acyclic).1 positive holds,
      fun g new => (holds_of_moreKnown (moreKnown_addFluent new) acyclic).1 positive holds⟩
  · intro negative fails
    have still : ∀ v : World, w.MoreKnown v → v.holds f = false := by
      intro v more
      by_contra holds
      rw [(holds_of_moreKnown more acyclic).2 negative (by simpa using holds)] at fails
      cases fails
    exact ⟨fun l => still _ (moreKnown_addFact w l), fun g new => still _ (moreKnown_addFluent new)⟩

/-- That an object is not said to be unclear and that its level is low goes on to hold when more
becomes known, and its negation goes on to fail. -/
theorem holds_mono_levelled :
    let w := (empty levels).run (levelled.take 4)
    let l : Literal := { Literal.positive "CLEAR" ["a"] with negated := true }
    let f := Formula.conj [.neg (.ofLiteral l),
      .expression .less (.ofFluent (.ground "level" ["a"] 0)) (.number 3)]
    w.holds f = true ∧ (w.addFact (.positive "clear" ["b"])).world.holds f = true ∧
      (w.addFluent (.ground "level" ["b"] 2)).world.holds f = true ∧
      (w.addFact (.positive "clear" ["b"])).world.holds (.neg f) = false := by
  intro w l f
  let parts : List Term := [.node .not [.node (.predicate l) []],
    .node (.expression .less)
      [.node (.function (.ground "level" ["a"] 0)) [], .node (.number 3) []]]
  have whole : f = .ofTerm (.node .and parts) := rfl
  have negation : Formula.neg f = .ofTerm (.node .not [.node .and parts]) := by
    rw [whole, Formula.neg, Formula.compose, List.filterMap_cons_some (Formula.term?_ofTerm _),
      List.filterMap_nil]
  have signed : ∀ (rising : Nat → Prop) (count : Nat), rising count → ¬ rising (count + 1) →
      (Term.node .and parts).Signed rising count := by
    intro rising count up down
    simp [Term.signed_node_iff, parts, NodeKind.Follows, NodeKind.nots, up, down, l]
  have positive : f.Positive := by
    rw [whole]
    exact Formula.signed_ofTerm (signed Even 0 (by decide) (by decide))
  have negative : (Formula.neg f).Negative := by
    have below := signed Odd 1 (by decide) (by decide)
    rw [negation]
    exact Formula.signed_ofTerm (.node trivial (List.forall_mem_singleton.2 below))
  obtain ⟨rises, _⟩ := holds_mono w f (Formula.acyclic_ofTerm _)
  obtain ⟨_, falls⟩ := holds_mono w (.neg f) (Formula.acyclic_ofTerm _)
  have holds : w.holds f = true := by decide +kernel
  obtain ⟨fact, fluent⟩ := rises positive holds
  exact ⟨holds, fact _, fluent _ (by decide +kernel), (falls negative (by decide +kernel)).1 _⟩

end World

end WorldModel
