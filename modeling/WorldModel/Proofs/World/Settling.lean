/-
What the removal of an unknown fact comes to.

A removal finds the first stored contingent fact that matches the given formula. What is
given need not be stored as it is, and may be any array of nodes, but what matches a head over
literals has to unfold to one (`Formula.Lists.exists_flat_of_equiv`): so the formula is
`(unknown P)` for one literal, or its root is another head.

After an unknown fact the settled literal is taken out of the one-ofs that list it. The loop
that stores what is left of them checks every literal that becomes a fact, and could stop
there. It does not, because all of these literals were valid before, and what it leaves can be
said at once for all lists (`storeOneOfs_eq`): each of two literals or more becomes a one-of,
each of a single one a fact, and the empty ones are passed over.

**Main statement.** `removeContingent_settles`: after any run over formulas with nothing below
their leaves, the removal of a valid formula is carried out, changes nothing if no contingent
fact matches, takes out the first match otherwise, and if this is an unknown fact leaves what
`Settlement` says.
-/
import WorldModel.Proofs.World.Atomic
import WorldModel.Proofs.World.Duplicates

set_option autoImplicit false

namespace WorldModel

/-! ## What matches a head over literals -/

/-- What a head of contingent facts equals is the same head. -/
theorem Heads.eq_of_same {k l : NodeKind} {count : Nat} (head : Heads k count)
    (same : k.same l = true) : l = k := by
  rcases head with _ | _ | _ <;> cases l <;> first | rfl | cases same

/-- What a flat term equals is a flat term. -/
theorem Term.exists_flat_of_flat_same {k : NodeKind} {ls : List Literal} {u : Term}
    (same : (flat k ls).same u = true) : ∃ l ms, u = flat l ms ∧ k.same l = true ∧
      List.Forall₂ (fun a b => a.sameFact b = true) ls ms := by
  obtain ⟨l, ds⟩ := u
  rw [flat, Term.same, Bool.and_eq_true, sameAll_iff] at same
  obtain ⟨top, each⟩ := same
  suffices leaves : ∃ ms, ds = ms.map (fun a => .node (.predicate a) []) ∧
      List.Forall₂ (fun a b => a.sameFact b = true) ls ms by
    obtain ⟨ms, rfl, pairs⟩ := leaves
    exact ⟨l, ms, rfl, top, pairs⟩
  clear top
  induction ls generalizing ds with
  | nil =>
    obtain rfl := List.forall₂_nil_left_iff.1 each
    exact ⟨[], rfl, .nil⟩
  | cons a ls ih =>
    obtain ⟨⟨kind, below⟩, later, first, rest, rfl⟩ := List.forall₂_cons_left_iff.1 each
    rw [Term.same, Bool.and_eq_true, sameAll_iff, List.forall₂_nil_left_iff] at first
    obtain ⟨stated, rfl⟩ := first
    obtain ⟨ms, rfl, pairs⟩ := ih later rest
    cases kind with
    | predicate b => exact ⟨b :: ms, rfl, .cons stated pairs⟩
    | _ => cases stated

namespace Formula

variable {f g : Formula} {k : NodeKind} {ls : List Literal}

/-- What is shown as a leaf, however deep, is one from the second level on: there is no node
below it. -/
theorem unfoldWithin_of_leaf {depth id : Nat} {kind : NodeKind}
    (shown : f.unfoldWithin (depth + 2) id = some (.node kind [])) (other : Nat) :
    f.unfoldWithin (other + 1) id = some (.node kind []) := by
  cases found : f.node? id with
  | none =>
    rw [unfoldWithin_of_none found] at shown
    cases shown
  | some m =>
    rw [unfoldWithin_of_node? found, Option.some.injEq, Term.node.injEq] at shown
    obtain ⟨rfl, below⟩ := shown
    rw [unfoldWithin_of_node? found, List.filterMap_eq_nil_iff.2 fun c mem => ?_]
    have hidden := List.filterMap_eq_nil_iff.1 below c mem
    cases missing : f.node? c with
    | none => exact unfoldWithin_of_none missing other
    | some _ =>
      rw [unfoldWithin_of_node? missing] at hidden
      cases hidden

/-- What unfolds to a flat term, deeper than there are nodes, has it as its term. -/
theorem term?_of_unfoldWithin_flat {depth : Nat} (deeper : f.size < depth)
    (head : k.keyword? ≠ none) (shown : f.unfoldWithin depth 0 = some (.flat k ls)) :
    f.term? = some (.flat k ls) := by
  obtain ⟨depth, rfl⟩ := Nat.exists_eq_succ_of_ne_zero (Nat.ne_zero_of_lt deeper)
  cases root : f.root? with
  | none =>
    rw [unfoldWithin_of_none root] at shown
    cases shown
  | some n =>
    rw [unfoldWithin_of_node? root, Term.flat, Option.some.injEq, Term.node.injEq] at shown
    obtain ⟨rfl, below⟩ := shown
    rw [term?_of_root? root, Term.flat, ← below]
    refine congrArg some (congrArg (Term.node n.kind) (List.filterMap_congr fun c mem => ?_))
    cases found : f.node? c with
    | none => rw [unfoldWithin_of_none found, unfoldWithin_of_none found]
    | some m =>
      obtain ⟨inside, _⟩ := Array.getElem?_eq_some_iff.1 found
      have bound : c < f.size := inside
      obtain ⟨b, rfl⟩ := Nat.exists_eq_succ_of_ne_zero (n := depth) (by omega)
      have here := unfoldWithin_of_node? found b
      have listed := List.mem_filterMap.2 ⟨c, mem, here⟩
      rw [below] at listed
      obtain ⟨l, _, leaf⟩ := List.mem_map.1 listed
      -- the child is another node than the root, so there are two at least
      have other : c ≠ 0 := by
        rintro rfl
        obtain rfl := Option.some.inj (found.symm.trans root)
        rw [← (Term.node.inj leaf).1] at head
        exact head rfl
      obtain ⟨b, rfl⟩ := Nat.exists_eq_succ_of_ne_zero (n := b) (by omega)
      obtain ⟨a, eq⟩ : ∃ a, f.size - 1 = a + 1 := ⟨f.size - 2, by omega⟩
      rw [← leaf] at here
      rw [eq, here, unfoldWithin_of_leaf here]

/-- **What matches a head over literals** unfolds to the same head over literals that state the
same. -/
theorem Lists.exists_flat_of_equiv (lists : g.Lists k ls) (head : Heads k ls.length)
    (same : g.equiv f = true) : ∃ ms, f.term? = some (.flat k ms) ∧
      List.Forall₂ (fun a b => a.sameFact b = true) ls ms := by
  have nonempty : g.isEmpty = false := by
    obtain ⟨n, root, _⟩ := lists
    rw [← Bool.not_eq_true, isEmpty_iff_root?, root]
    exact nofun
  have here : g.unfoldWithin (g.size + f.size + 1) 0 = some (.flat k ls) := by
    rw [unfoldWithin_of_acyclic lists.acyclic (by omega), lists.term?_eq head.keyword?_ne_none]
  rw [equiv, nonempty, Bool.false_and, Bool.false_or, equivAt] at same
  simp only [here] at same
  cases shown : f.unfoldWithin (g.size + f.size + 1) 0 with
  | none =>
    rw [shown] at same
    cases same
  | some u =>
    rw [shown] at same
    obtain ⟨l, ms, rfl, top, pairs⟩ := Term.exists_flat_of_flat_same same
    obtain rfl := head.eq_of_same top
    exact ⟨ms, term?_of_unfoldWithin_flat (by omega) head.keyword?_ne_none shown, pairs⟩

end Formula

namespace World

variable {w v : World} {settled : Literal}

/-! ## What is left of one-ofs -/

/-- **The formula is a one-of that lists the literal**, under any types of its arguments. -/
def hasCandidate (settled : Literal) (f : Formula) : Bool :=
  f.rootTag? == some .oneOf && f.literals.any (·.sameFact settled)

/-- The literals of a formula that do not state the settled fact. -/
def others (settled : Literal) (f : Formula) : List Literal :=
  f.literals.filter fun l => !l.sameFact settled

/-- What is left of the one-ofs that list the literal, in their order. -/
def remainders (settled : Literal) (fs : List Formula) : List (List Literal) :=
  (fs.filter (hasCandidate settled)).map (others settled)

/-- The only literal of a list. -/
def only? : List Literal → Option Literal
  | [l] => some l
  | _ => none

theorem only?_eq_some_iff {ls : List Literal} {l : Literal} : only? ls = some l ↔ ls = [l] := by
  rcases ls with _ | ⟨m, _ | ⟨_, _⟩⟩ <;> simp [only?]

theorem withoutDisjunct?_eq (settled : Literal) (f : Formula) :
    withoutDisjunct? settled f = if hasCandidate settled f then some (others settled f) else none :=
  rfl

theorem filter_withoutDisjunct? (settled : Literal) (fs : List Formula) :
    (fs.filter fun f => (withoutDisjunct? settled f).isNone) =
      fs.filter fun f => !hasCandidate settled f := by
  refine List.filter_congr fun f _ => ?_
  rw [withoutDisjunct?_eq]
  cases hasCandidate settled f <;> rfl

theorem filterMap_withoutDisjunct? (settled : Literal) (fs : List Formula) :
    fs.filterMap (withoutDisjunct? settled) = remainders settled fs := by
  rw [remainders]
  induction fs with
  | nil => rfl
  | cons f fs ih =>
    cases listed : hasCandidate settled f <;> simp [withoutDisjunct?_eq, listed, ih]

/-- The one-ofs that are stored of lists of literals, those of two at least. -/
def severals (lists : List (List Literal)) : List Formula :=
  (lists.filter (2 ≤ ·.length)).map .oneOf

/-- A new fact does not look at contingent facts, and leaves them as they are. -/
theorem addFact_withContingents (w : World) (fs : List Formula) (l : Literal) :
    (addFact { w with contingents := fs } l).world =
      { (w.addFact l).world with contingents := fs } := by
  have known : hasFact { w with contingents := fs } = w.hasFact := rfl
  have fits : validLiteral { w with contingents := fs } = w.validLiteral := rfl
  have spell : spellLiteral { w with contingents := fs } = w.spellLiteral := rfl
  simp only [addFact, known, fits, spell]
  split
  · rfl
  · split <;> rfl

theorem refusal_addFact {l : Literal} (valid : w.validLiteral l = true) :
    (w.addFact l).refusal = none := by
  rcases addFact_cases w l with ⟨_, eq⟩ | ⟨_, _, eq⟩ | ⟨_, invalid, _⟩
  · rw [eq, accepted]
  · rw [eq, accepted]
  · rw [valid] at invalid
    cases invalid

/-- **Storing one-ofs one after the other** stores those of two literals or more, and adds the
others as facts, as long as these are valid. -/
theorem storeOneOfs_eq (w : World) (lists : List (List Literal))
    (valid : ∀ l ∈ lists.filterMap only?, w.validLiteral l = true) :
    w.storeOneOfs lists = accepted (addFacts
      { w with contingents := w.contingents ++ severals lists } (lists.filterMap only?)) := by
  induction lists generalizing w with
  | nil => simp [storeOneOfs, severals, addFacts]
  | cons ls lists ih =>
    rcases ls with _ | ⟨l, _ | ⟨m, ls⟩⟩
    · exact ih w valid
    · obtain ⟨first, later⟩ := List.forall_mem_cons.1 valid
      have step : w.storeOneOfs ([l] :: lists) = (w.addFact l).world.storeOneOfs lists := by
        rw [storeOneOfs, store, (Formula.lists_oneOf [l]).soleDisjunct?_eq_some]
        · simp only [refusal_addFact first]
        · simp
      have same : (w.addFact l).world.validLiteral = w.validLiteral :=
        funext fun k => validLiteral_congr (domain_addFact w l) (objects_addFact w l) k
      rw [step, ih _ (by rw [same]; exact later), contingents_addFact,
        ← addFact_withContingents]
      rfl
    · have step : w.storeOneOfs ((l :: m :: ls) :: lists) = storeOneOfs
          { w with contingents := w.contingents ++ [.oneOf (l :: m :: ls)] } lists := by
        rw [storeOneOfs, store, (Formula.lists_oneOf _).soleDisjunct?_eq_none (by simp)]
        · rfl
        · simp
      have none_ : ((l :: m :: ls) :: lists).filterMap only? = lists.filterMap only? := rfl
      rw [none_] at valid ⊢
      have rest := ih { w with contingents := w.contingents ++ [.oneOf (l :: m :: ls)] } valid
      rw [step, rest]
      simp [severals]

/-! ## The whole removal -/

/-- **What a world is left with** when the literal is settled, where `fs` are the contingent
facts without the one that said it is unknown. -/
structure Settlement (w v : World) (fs : List Formula) (settled : Literal) : Prop where
  domain : v.domain = w.domain
  objects : v.objects = w.objects
  fluents : v.fluents = w.fluents
  goal : v.goal = w.goal
  /-- A contingent fact is a head over the literals that are looked at. -/
  disjuncts : ∀ f ∈ fs, ∃ k, f.Lists k f.literals
  /-- All that are no one-ofs that list the literal are there in order, and behind them, in
  order too, what is left of those that do, if it is two literals at least. -/
  contingents : v.contingents =
    (fs.filter fun f => !hasCandidate settled f) ++ severals (remainders settled fs)
  /-- All facts are there in order, and any new ones are literals that are left alone. -/
  facts : ∃ added, v.facts = w.facts ++ added ∧
    added.Sublist ((remainders settled fs).filterMap only?)
  /-- Every literal that is left alone is stated then. -/
  stated : ∀ f ∈ fs, hasCandidate settled f = true → ∀ l, others settled f = [l] →
    v.facts.any (·.sameFact l) = true
  /-- No one-of lists the literal any more. -/
  silent : ∀ f ∈ v.contingents, hasCandidate settled f = false

/-- What is left of a one-of does not list the settled literal. -/
theorem hasCandidate_of_mem_severals {fs : List Formula} {g : Formula}
    (mem : g ∈ severals (remainders settled fs)) : hasCandidate settled g = false := by
  obtain ⟨ls, inside, rfl⟩ := List.mem_map.1 mem
  obtain ⟨left, several⟩ := List.mem_filter.1 inside
  obtain ⟨f, _, rfl⟩ := List.mem_map.1 left
  have head : Heads .oneOf (others settled f).length := by
    refine .oneOf fun none_ => ?_
    rw [none_] at several
    cases several
  rw [hasCandidate, (Formula.lists_oneOf _).literals_eq head, Bool.and_eq_false_iff]
  refine .inr (List.any_eq_false.2 fun l listed => ?_)
  simpa using (List.mem_filter.1 listed).2

/-- A literal that is left alone is one of a stored contingent fact. -/
theorem ContingentsStand.valid_of_only? (stand : w.ContingentsStand) {fs : List Formula}
    (among : fs ⊆ w.contingents) {l : Literal}
    (mem : l ∈ (remainders settled fs).filterMap only?) :
    w.validLiteral l = true ∧ w.domain.spellPredicate l.name = l.name := by
  obtain ⟨ls, left, single⟩ := List.mem_filterMap.1 mem
  obtain ⟨f, inside, rfl⟩ := List.mem_map.1 left
  have listed : l ∈ others settled f := by
    rw [only?_eq_some_iff.1 single]
    exact List.mem_singleton_self l
  obtain ⟨k, ls, lit, _⟩ := stand f (among (List.mem_of_mem_filter inside))
  rw [others, lit.lists.literals_eq lit.head] at listed
  exact ⟨lit.valid l (List.mem_of_mem_filter listed), lit.spelled l (List.mem_of_mem_filter listed)⟩

/-- **Settling a literal** is never refused, since all literals of contingent facts are valid,
and leaves what it says. -/
theorem settlement_of_stand (stand : w.ContingentsStand) {fs : List Formula}
    (among : fs ⊆ w.contingents) (settled : Literal) :
    let o := settle { w with contingents := fs } settled
    o.refusal = none ∧ Settlement w o.world fs settled := by
  intro o
  have stored : o = accepted (addFacts { w with
      contingents :=
        (fs.filter fun f => !hasCandidate settled f) ++ severals (remainders settled fs) }
      ((remainders settled fs).filterMap only?)) := by
    have eq := storeOneOfs_eq { w with contingents := fs.filter fun f => !hasCandidate settled f }
      (remainders settled fs) fun l mem => (stand.valid_of_only? among mem).1
    rw [← eq, ← filter_withoutDisjunct?, ← filterMap_withoutDisjunct?]
    rfl
  obtain ⟨added, all, sublist, stated⟩ := addFacts_spec { w with
      contingents :=
        (fs.filter fun f => !hasCandidate settled f) ++ severals (remainders settled fs) }
    ((remainders settled fs).filterMap only?) (fun l mem => (stand.valid_of_only? among mem).1)
    fun l mem => (stand.valid_of_only? among mem).2
  rw [all] at stored
  rw [stored]
  refine ⟨rfl, rfl, rfl, rfl, rfl, fun f mem => ?_, rfl, ⟨added, rfl, sublist⟩, ?_, ?_⟩
  · obtain ⟨k, ls, lit, _⟩ := stand f (among mem)
    exact ⟨k, by rw [lit.lists.literals_eq lit.head]; exact lit.lists⟩
  · intro f mem listed l single
    refine stated l (List.mem_filterMap.2 ⟨others settled f, ?_, only?_eq_some_iff.2 single⟩)
    exact List.mem_map_of_mem (List.mem_filter.2 ⟨mem, listed⟩)
  · refine List.forall_mem_append.2 ⟨fun f mem => ?_, fun f => hasCandidate_of_mem_severals⟩
    simpa using (List.mem_filter.1 mem).2

theorem removeContingent_of_missing {f : Formula} (valid : w.validFormula f = true)
    (missing : w.hasContingent f = false) : w.removeContingent f = accepted w := by
  rw [hasContingent] at missing
  simp [removeContingent, valid, missing]

/-- Of a formula that is stored the first match is taken out, and is settled if it is an
unknown fact. -/
theorem removeContingent_of_stored {f : Formula} (valid : w.validFormula f = true)
    (stored : w.hasContingent f = true) :
    let left := { w with contingents := w.contingents.eraseP (·.equiv (w.spellFormula f)) }
    ((w.spellFormula f).rootTag? ≠ some .unknown → w.removeContingent f = left.accepted) ∧
      ∀ l ls, (w.spellFormula f).rootTag? = some .unknown →
        (w.spellFormula f).literals = l :: ls → w.removeContingent f = left.settle l := by
  rw [hasContingent] at stored
  simp only [removeContingent, valid, stored, Bool.not_true, Bool.false_eq_true, if_false]
  refine ⟨fun other => ?_, fun l ls tag literals => ?_⟩
  · split
    · next tag _ => exact absurd tag other
    · rfl
  · simp only [tag, literals]

/-- **The removal of the first match**, where contingent facts are heads over valid literals:
it is carried out, and settles the literal of an unknown fact. -/
theorem removal_of_match (stand : w.ContingentsStand) {f g : Formula} {before after : List Formula}
    (valid : w.validFormula f = true) (stored : w.contingents = before ++ g :: after)
    (match_ : g.equiv (w.spellFormula f) = true)
    (first : ∀ h ∈ before, h.equiv (w.spellFormula f) = false) :
    let o := w.removeContingent f
    o.refusal = none ∧
      ((∀ l, (w.spellFormula f).term? ≠ some (.flat .unknown [l])) →
        o.world = { w with contingents := before ++ after }) ∧
      ∀ l, (w.spellFormula f).term? = some (.flat .unknown [l]) →
        Settlement w o.world (before ++ after) l := by
  intro o
  have inside : g ∈ w.contingents := by simp [stored]
  have known : w.hasContingent f = true := List.any_eq_true.2 ⟨g, inside, match_⟩
  have erased : w.contingents.eraseP (·.equiv (w.spellFormula f)) = before ++ after := by
    rw [stored, List.eraseP_append_right _ fun h mem => by simp [first h mem]]
    exact congrArg (before ++ ·) (List.eraseP_cons_of_pos match_)
  have among : before ++ after ⊆ w.contingents := by
    rw [← erased]
    exact List.eraseP_subset
  obtain ⟨accept, settles⟩ := removeContingent_of_stored valid known
  rw [erased] at accept settles
  -- the given formula is the same head over literals as the match
  obtain ⟨k, ls, lit, _⟩ := stand g inside
  have tag : (w.spellFormula f).rootTag? = some k.tag := by
    rw [← Formula.rootTag?_of_equiv match_, lit.lists.rootTag?_eq]
  obtain ⟨ms, shown, pairs⟩ := lit.lists.exists_flat_of_equiv lit.head match_
  by_cases unknown : k = .unknown
  · obtain rfl := unknown
    obtain ⟨m, rfl⟩ : ∃ m, ms = [m] :=
      List.length_eq_one_iff.1 (pairs.length_eq.symm.trans lit.head.count_of_unknown)
    have literals : (w.spellFormula f).literals = [m] := by
      rw [Formula.literals_of_term? shown, Term.literals_flat rfl]
    have removed : o = settle { w with contingents := before ++ after } m :=
      settles m [] tag literals
    obtain ⟨carried, settlement⟩ := settlement_of_stand stand among m
    rw [removed]
    refine ⟨carried, fun other => absurd shown (other m), fun l same => ?_⟩
    rw [shown, Option.some.injEq, Term.flat, Term.flat] at same
    obtain rfl : m = l := by simpa using same
    exact settlement
  · have removed : o = accepted { w with contingents := before ++ after } := by
      refine accept fun same => unknown ?_
      rw [tag, Option.some.injEq] at same
      cases k <;> first | rfl | cases same
    rw [removed]
    refine ⟨rfl, fun _ => rfl, fun l same => ?_⟩
    rw [shown, Option.some.injEq, Term.flat, Term.flat, Term.node.injEq] at same
    exact absurd same.1 unknown

/-- **The removal of a contingent fact**, after any run over any domain in which nothing stands
below the leaves of the formulas that are handed in. Any valid formula is removed: without a
match nothing changes; otherwise the first match is taken out, and if the formula is an unknown
fact in the domain's spelling, its literal is settled. -/
theorem removeContingent_settles (d : Domain) (ms : List Mutation)
    (takes : ∀ m ∈ ms, m.Takes d Formula.BareLeaves) (f : Formula)
    (valid : ((empty d).run ms).validFormula f = true) :
    let w := (empty d).run ms
    let o := w.removeContingent f
    o.refusal = none ∧ (w.hasContingent f = false → o.world = w) ∧
      (w.hasContingent f = true → ∃ before g after, w.contingents = before ++ g :: after ∧
        g.equiv (w.spellFormula f) = true ∧
        (∀ h ∈ before, h.equiv (w.spellFormula f) = false) ∧
        ((∀ l, (w.spellFormula f).term? ≠ some (.flat .unknown [l])) →
          o.world = { w with contingents := before ++ after }) ∧
        ∀ l, (w.spellFormula f).term? = some (.flat .unknown [l]) →
          Settlement w o.world (before ++ after) l) := by
  intro w o
  have stand : w.ContingentsStand := (kept_contingentsStand d).run readerMakes_bareLeaves takes
  cases known : w.hasContingent f with
  | false =>
    have unchanged : o = accepted w := removeContingent_of_missing valid known
    rw [unchanged]
    exact ⟨rfl, fun _ => rfl, nofun⟩
  | true =>
    obtain ⟨h, inside, equal⟩ := List.any_eq_true.1 known
    obtain ⟨g, before, after, earlier, match_, stored, _⟩ :=
      List.exists_of_eraseP inside (p := fun g => g.equiv (w.spellFormula f)) equal
    have first : ∀ h ∈ before, h.equiv (w.spellFormula f) = false :=
      fun h mem => by simpa using earlier h mem
    obtain ⟨carried, taken, settlement⟩ := removal_of_match stand valid stored match_ first
    exact ⟨carried, nofun,
      fun _ => ⟨before, g, after, stored, match_, first, taken, settlement⟩⟩

/-- An unknown fact in the domain's spelling. -/
theorem term?_spellFormula_unknown (w : World) (l : Literal) :
    (w.spellFormula (.unknown l)).term? = some (.flat .unknown [w.spellLiteral l]) := by
  have unknown : Formula.unknown l = .ofTerm (.flat .unknown [l]) := rfl
  have atoms : ∀ l, NodeKind.rename w.domain.spellPredicate w.domain.spellFunction (.predicate l) =
      .predicate (w.spellLiteral l) := fun _ => rfl
  rw [unknown, spellFormula, Formula.term?_renameAtoms, Formula.term?_ofTerm, Option.map_some,
    Term.mapKinds_flat _ _ atoms]
  rfl

/-- Four one-ofs, three of which list one literal that is also said to be unknown. Without it
one is left with two literals, one with a single one, and one with none. -/
def weighing : List Mutation :=
  [.addObject ⟨"a", "object"⟩, .addObject ⟨"b", "object"⟩, .addObject ⟨"c", "object"⟩,
    .addContingent (.oneOf [.positive "clear" ["a"], .positive "clear" ["b"],
      .positive "clear" ["c"]]),
    .addContingent (.oneOf [.positive "clear" ["b"], .positive "clear" ["a"]]),
    .addContingent (.oneOf [.positive "clear" ["a"], .positive "Clear" ["a"]]),
    .addContingent (.unknown (.positive "clear" ["a"])),
    .addContingent (.oneOf [.positive "clear" ["c"], (Literal.positive "clear" ["a"]).negate])]

theorem removeContingent_settles_weighing :
    let w := (empty clearOnly).run weighing
    let o := w.removeContingent (.unknown (.positive "CLEAR" ["a"]))
    (o.world.contingents.length = 2 ∧ o.world.facts.map (·.args.map (·.name)) = [["b"]]) ∧
      ∃ fs l, fs.length = 4 ∧ Settlement w o.world fs l := by
  intro w o
  have word : NodeKind.oneOf.keyword? ≠ none ∧ NodeKind.unknown.keyword? ≠ none := by decide
  have oneOf : ∀ ls, (Formula.ofTerm (.flat .oneOf ls)).BareLeaves :=
    fun ls => Formula.bareLeaves_ofTerm (Term.bare_flat word.1 ls)
  have unknown : ∀ l, (Formula.unknown l).BareLeaves :=
    fun l => Formula.bareLeaves_ofTerm (Term.bare_flat word.2 [l])
  have takes : ∀ m ∈ weighing, m.Takes clearOnly Formula.BareLeaves := by
    simp only [weighing, List.forall_mem_cons, Mutation.Takes, Formula.oneOf_eq]
    exact ⟨trivial, trivial, trivial, oneOf _, oneOf _, oneOf _, unknown _, oneOf _, by simp⟩
  have valid : w.validFormula (.unknown (.positive "CLEAR" ["a"])) = true := by decide +kernel
  have known : w.hasContingent (.unknown (.positive "CLEAR" ["a"])) = true := by decide +kernel
  have count : w.contingents.length = 5 := by decide +kernel
  obtain ⟨before, g, after, stored, _, _, _, settlement⟩ :=
    (removeContingent_settles clearOnly weighing takes _ valid).2.2 known
  refine ⟨by decide +kernel, before ++ after, _, ?_, settlement _ (term?_spellFormula_unknown w _)⟩
  rw [stored, List.length_append, List.length_cons] at count
  rw [List.length_append]
  omega

end World

end WorldModel
