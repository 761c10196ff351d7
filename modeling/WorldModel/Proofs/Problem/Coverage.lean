/-
How much of a text a problem covers.

A text may hold more than one form, and a definition more than one section of a head. The reader takes
the first definition and the first section of every head; the other forms it never looks at, and of the
other sections only the heads. Within a section nothing gets lost: every object name, every item of the
initial state and the goal expression is read, or the whole problem is refused (`number_eq_of_readFrom`).

So what is left out is known from the text alone: a problem covers its text precisely if there is nothing
but the definition and no later section of objects, of the initial state or of goals holds anything
(`problem_covers_iff`). Not every problem does: of an initial state that is given in two sections the
second one is passed over (`not_forall_covers`).
-/
import Mathlib.Algebra.GroupWithZero.Nat
import WorldModel.Proofs.World.Goal

set_option autoImplicit false

namespace WorldModel.Reader

/-! ## What a text lists -/

/-- **The names in an object list**: the items that are neither dashes nor the types behind them;
`afterDash` says whether the item before was a dash. -/
def objectNames (afterDash : Bool) : List SExpr → List SExpr
  | [] => []
  | sx :: sxs =>
    if afterDash then objectNames false sxs
    else if sx.atom? = some "-" then objectNames true sxs
    else sx :: objectNames false sxs

/-- What follows the head of a section. -/
def sectionArgs (sx : SExpr) : List SExpr :=
  (sx.list?.getD []).tail

/-- The sections that list something. -/
inductive Listing where
  | objects
  | init
  | goal

namespace Listing

/-- The head of such a section. -/
def head : Listing → String
  | objects => ":objects"
  | init => ":init"
  | goal => ":goal"

/-- How many there are in a section: object names, items of the initial state, or goal expressions. -/
def count : Listing → List SExpr → Nat
  | objects, sxs => (objectNames false sxs).length
  | init, sxs => sxs.length
  | goal, sxs => sxs.length

/-- How many there are in each of the sections of that head, from the first one on. -/
def counts (k : Listing) (ss : List SExpr) : List Nat :=
  (ss.filter (·.head? = some k.head)).map fun sx => k.count (sectionArgs sx)

/-- How many there are in a problem. -/
def number : Listing → Problem → Nat
  | objects, p => p.objects.length
  | init, p => p.init.length + p.contingent.length
  | goal, p => p.goal.toList.length

end Listing

/-- **Nothing of the text is dropped**: it is one definition, and the problem has as many objects, items
of the initial state and goals as there are in all sections of the definition together. -/
def Covers (p : Problem) (s : String) : Prop :=
  ∃ place ss span, SExpr.parse s = .ok [.list (.atom "define" place :: ss) span] ∧
    ∀ k : Listing, k.number p = (k.counts ss).sum

/-! ## Within a section -/

/-- **Every name of an object list is read**, after the names that wait for a type. -/
theorem length_of_typedList {sxs : List SExpr} {pending : List String}
    {pairs : List (String × String)} (read : typedList pending sxs = .ok pairs) :
    pairs.length = pending.length + (objectNames false sxs).length := by
  -- the induction follows the reader, which takes one item or two at a time
  fun_induction typedList pending sxs generalizing pairs with
  | case1 pending =>
    obtain rfl := Except.ok.inj read
    rw [List.length_map, objectNames, List.length_nil, Nat.add_zero]
  | case2 => exact absurd read faulty_ne_ok
  | case3 pending place type span rest ih =>
    -- the names that have waited get the type, and no name waits for the next one
    obtain ⟨later, readLater, rfl⟩ := map_eq_ok_iff.1 read
    have names : objectNames false (.atom "-" place :: .atom type span :: rest) =
        objectNames false rest := rfl
    rw [names, List.length_append, List.length_map, ih readLater, List.length_nil, Nat.zero_add]
  | case4 => cases read
  | case5 pending word place rest noDash ih =>
    have notDash : (SExpr.atom word place).atom? ≠ some "-" := fun same => noDash (Option.some.inj same)
    have names : objectNames false (.atom word place :: rest) =
        .atom word place :: objectNames false rest := by
      rw [objectNames, if_neg Bool.false_ne_true, if_neg notDash]
    rw [names, ih read, List.length_append, List.length_singleton, List.length_cons]
    omega

/-- Every item of the initial state is certain or contingent. -/
theorem length_certain?_add_length_contingent? (items : List InitItem) :
    (items.filterMap InitItem.certain?).length + (items.filterMap InitItem.contingent?).length =
      items.length := by
  induction items with
  | nil => rfl
  | cons item items ih =>
    cases item with
    | certain t =>
      have certain : (InitItem.certain t :: items).filterMap InitItem.certain? =
          .ofTerm t :: items.filterMap InitItem.certain? := rfl
      have contingent : (InitItem.certain t :: items).filterMap InitItem.contingent? =
          items.filterMap InitItem.contingent? := rfl
      rw [certain, contingent, List.length_cons, List.length_cons, ← ih]
      omega
    | contingent t =>
      have certain : (InitItem.contingent t :: items).filterMap InitItem.certain? =
          items.filterMap InitItem.certain? := rfl
      have contingent : (InitItem.contingent t :: items).filterMap InitItem.contingent? =
          .ofTerm t :: items.filterMap InitItem.contingent? := rfl
      rw [certain, contingent, List.length_cons, List.length_cons, ← ih]
      omega

/-- A goal is read from a goal section, and there is none without one. -/
theorem length_of_goal {typeOf : TypeOf} {items : Option (List SExpr)} {g : Option Formula}
    (read : goal typeOf items = .ok g) : g.toList.length = (items.getD []).length := by
  match items with
  | none =>
    obtain rfl := Except.ok.inj read
    rfl
  | some [] | some (_ :: _ :: _) => cases read
  | some [sx] =>
    obtain ⟨t, _, rfl⟩ := map_eq_ok_iff.1 read
    rfl

/-! ## The sections of a head -/

/-- What is read of a head stands in its first section. -/
theorem count_sectionItems? (k : Listing) (ss : List SExpr) :
    k.count ((sectionItems? ss k.head).getD []) = (k.counts ss).headD 0 := by
  have first : (ss.filter (·.head? = some k.head)).head? = ss.find? (·.head? = some k.head) :=
    List.head?_filter
  rw [sectionItems?, ← first, Listing.counts]
  -- without such a section nothing is listed, in the text and by the reader
  cases ss.filter (·.head? = some k.head) with
  | nil => cases k <;> rfl
  | cons sx later => cases sx <;> rfl

/-- **As many are read as there are in the first section**, of every kind. -/
theorem number_eq_of_readFrom {x : Parts} {s : String} {d : Domain} (from_ : x.ReadFrom s d)
    (k : Listing) : k.number x.problem = (k.counts x.sections).headD 0 := by
  rw [← count_sectionItems?]
  cases k with
  | objects =>
    have pairs := length_of_typedList from_.pairs
    rw [List.length_nil, Nat.zero_add] at pairs
    rw [Listing.number, Parts.problem, Parts.objects, List.length_map, pairs]
    rfl
  | init =>
    have items := (mapM_eq_ok_iff.1 from_.items).length_eq
    rw [← length_certain?_add_length_contingent?] at items
    exact items.symm
  | goal => exact length_of_goal from_.goal

/-- The first number is the sum of all if the later ones are none. -/
theorem headD_eq_sum_iff (ns : List Nat) : ns.headD 0 = ns.sum ↔ ∀ n ∈ ns.tail, n = 0 := by
  cases ns with
  | nil => simp
  | cons n ns =>
    rw [List.headD_cons, List.sum_cons, List.tail_cons, ← List.sum_eq_zero_iff_forall_eq_nat]
    omega

/-- All heads that may occur are known ones. -/
theorem exists_known_of_unknownSection? {ss : List SExpr} (known : unknownSection? ss = none) :
    ∀ sx ∈ ss, ∃ head ∈ knownSections, sx.head? = some head := by
  intro sx mem
  have passed := List.find?_eq_none.1 known sx mem
  cases eq : sx.head? with
  | none => simp [eq] at passed
  | some head => exact ⟨head, by simpa [eq] using passed, rfl⟩

/-! ## Whole texts -/

/-- **How much of a text a problem covers.** The sections of the first definition all have known heads,
and of each listing as many are read as there are in the first section of its head. So nothing is dropped
precisely if there is no other form and no later section of these heads holds anything. -/
theorem problem_covers_iff {s : String} {d : Domain} {p : Problem} (read : problem s d = .ok p) :
    ∃ forms ss, SExpr.parse s = .ok forms ∧ sections forms = .ok ss ∧
      (∀ sx ∈ ss, ∃ head ∈ knownSections, sx.head? = some head) ∧
      (∀ k : Listing, k.number p = (k.counts ss).headD 0) ∧
      (Covers p s ↔ (∃ place span, forms = [.list (.atom "define" place :: ss) span]) ∧
        ∀ k : Listing, ∀ n ∈ (k.counts ss).tail, n = 0) := by
  obtain ⟨x, from_, rfl⟩ := problem_eq_ok_iff.1 read
  obtain ⟨forms, parsed, found⟩ := from_.sections
  have first := number_eq_of_readFrom from_
  refine ⟨forms, x.sections, parsed, found, exists_known_of_unknownSection? from_.known, first, ?_⟩
  constructor
  · rintro ⟨place, ss, span, whole, all⟩
    -- the one form is the definition, so these are its sections
    obtain rfl := Except.ok.inj (parsed.symm.trans whole)
    obtain rfl : ss = x.sections := Except.ok.inj found
    refine ⟨⟨place, span, rfl⟩, fun k => ?_⟩
    rw [← headD_eq_sum_iff, ← first, all]
  · rintro ⟨⟨place, span, rfl⟩, later⟩
    refine ⟨place, x.sections, span, parsed, fun k => ?_⟩
    rw [first, headD_eq_sum_iff]
    exact later k

/-- A second section of the initial state that holds nothing: nothing is dropped. -/
theorem problem_covers_iff_clear :
    ∃ p, problem "(define (problem p) (:domain d) (:init (clear a)) (:init))" World.clearOnly = .ok p ∧
      Covers p "(define (problem p) (:domain d) (:init (clear a)) (:init))" := by
  have known : (problem "(define (problem p) (:domain d) (:init (clear a)) (:init))"
      World.clearOnly).toOption.map (fun p => p.init.length) = some 1 := by decide +kernel
  have counted : (SExpr.parse "(define (problem p) (:domain d) (:init (clear a)) (:init))").toOption.map
      (fun forms => (sections forms).toOption.map fun ss =>
        (Listing.objects.counts ss, Listing.init.counts ss, Listing.goal.counts ss)) =
      some (some ([], [1, 0], [])) := by decide +kernel
  have whole : ∃ place ss span,
      SExpr.parse "(define (problem p) (:domain d) (:init (clear a)) (:init))" =
        .ok [.list (.atom "define" place :: ss) span] := ⟨_, _, _, rfl⟩
  obtain ⟨p, read, _⟩ := exists_ok_of_map_toOption known
  obtain ⟨place, ss, span, whole⟩ := whole
  obtain ⟨forms, ts, parsed, found, _, _, covers⟩ := problem_covers_iff read
  obtain rfl := Except.ok.inj (parsed.symm.trans whole)
  obtain rfl : ss = ts := Except.ok.inj found
  rw [whole] at counted
  have counts : (Listing.objects.counts ss, Listing.init.counts ss, Listing.goal.counts ss) =
      ([], [1, 0], []) := Option.some.inj (Option.some.inj counted)
  simp only [Prod.mk.injEq] at counts
  obtain ⟨objects, init, goal⟩ := counts
  refine ⟨p, read, covers.2 ⟨⟨place, span, rfl⟩, fun k => ?_⟩⟩
  cases k with
  | objects => simp [objects]
  | init => simp [init]
  | goal => simp [goal]

/-- **Facts can be dropped**: of two sections of the initial state only the first one is read. -/
theorem not_forall_covers :
    ¬ ∀ (s : String) (d : Domain) (p : Problem), problem s d = .ok p → Covers p s := by
  intro all
  let s := "(define (problem p) (:domain d) (:objects a b) (:init (clear a)) (:init (clear b)))"
  have known : (problem s World.clearOnly).toOption.map (fun p => p.init.length + p.contingent.length) =
      some 1 := by decide +kernel
  have twice : (SExpr.parse s).toOption.map (fun forms => (sections forms).toOption.map fun ss =>
      (Listing.init.counts ss).sum) = some (some 2) := by decide +kernel
  obtain ⟨p, read, one⟩ := exists_ok_of_map_toOption known
  obtain ⟨place, ss, span, whole, covered⟩ := all s World.clearOnly p read
  have two : (Listing.init.counts ss).sum = 2 := by
    rw [whole] at twice
    exact Option.some.inj (Option.some.inj twice)
  have same := covered .init
  rw [two] at same
  exact absurd (one.symm.trans same) (by decide)

end WorldModel.Reader
