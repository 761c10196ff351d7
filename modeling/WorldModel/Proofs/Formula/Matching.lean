/-
When formulas match.

Two formulas are compared from their roots downwards, node by node and child by child. The
numbers of the nodes play no part in it, nor do nodes that the roots do not reach: what is
compared are the terms below the roots. **Main statement.** `equiv_iff_equals`: forests match when
both are empty, or when their terms are equal once the types of arguments and the values of
fluents are left out of them (`Term.outline`), with numbers compared as numbers (`Term.Equals`).
Terms are unfolded for it, but it comes to the same as to go down through both formulas at once
(`Forest.equivAt_iff`).

The rest follows from this. Matching is symmetric and transitive, and a formula matches itself
unless its root reaches something that is not a number. What is taken out of a formula at the root
matches what the formula matches, and compositions under one kind match when their parts match
one by one.
-/
import WorldModel.Proofs.Formula.Below
import WorldModel.Proofs.Formula.Records

set_option autoImplicit false

namespace WorldModel

open Relation (ReflTransGen)

/-! ## Kinds -/

/-- Arguments of which nothing is left but the names. -/
def namesOnly (as : List Argument) : List Argument :=
  as.map fun a => .untyped a.name

theorem namesOnly_eq_iff {as bs : List Argument} :
    namesOnly as = namesOnly bs ↔ as.map (·.name) = bs.map (·.name) := by
  have plain : ∀ cs : List Argument, namesOnly cs = (cs.map (·.name)).map .untyped := by
    intro cs
    rw [namesOnly, List.map_map]
    rfl
  rw [plain, plain]
  refine List.map_inj_right ?_
  rintro a b same
  exact congrArg Argument.name same

namespace NodeKind

/-- **The kind without types and values**: arguments are left with their names only, and a fluent
without its value. -/
def outline : NodeKind → NodeKind
  | predicate l => predicate { l with args := namesOnly l.args }
  | function f => function ⟨f.name, namesOnly f.args, 0⟩
  | k => k

/-- The kinds are the same, or numbers that are equal as numbers. -/
def Equals : NodeKind → NodeKind → Prop
  | number x, number y => (x == y) = true
  | k, l => k = l

/-- **Local equality** is equality without types and values. -/
theorem same_iff {k l : NodeKind} : k.same l = true ↔ k.outline.Equals l.outline := by
  cases k with
  | predicate a =>
    cases l with
    | predicate b =>
      obtain ⟨name, args, negated⟩ := a
      obtain ⟨name', args', negated'⟩ := b
      simp [same, outline, Equals, Literal.sameFact_iff, namesOnly_eq_iff, and_comm, and_left_comm]
    | _ => simp [same, outline, Equals, tag]
  | function a =>
    cases l with
    | function b => simp [same, outline, Equals, Fluent.sameKey_iff, namesOnly_eq_iff]
    | _ => simp [same, outline, Equals, tag]
  | expression a => cases l <;> simp [same, outline, Equals, tag]
  | update a => cases l <;> simp [same, outline, Equals, tag]
  | number x => cases l <;> simp [same, outline, Equals, tag]
  | and | or | not | unknown | oneOf => cases l <;> simp [same, outline, Equals, tag]

theorem same_symm {k l : NodeKind} (h : k.same l = true) : l.same k = true := by
  rw [same_iff] at h ⊢
  generalize k.outline = a at h ⊢
  generalize l.outline = b at h ⊢
  cases a with
  | number x =>
    cases b with
    | number y => exact Number.beq_comm.trans h
    | _ => cases h
  | _ =>
    obtain rfl := h
    rfl

theorem same_trans {k l m : NodeKind} (first : k.same l = true) (second : l.same m = true) :
    k.same m = true := by
  rw [same_iff] at first second ⊢
  generalize k.outline = a at first ⊢
  generalize l.outline = b at first second
  generalize m.outline = c at second ⊢
  cases a with
  | number x =>
    cases b with
    | number y =>
      cases c with
      | number z => exact Number.beq_trans first second
      | _ => cases second
    | _ => cases first
  | _ =>
    obtain rfl := first
    exact second

/-- A kind equals itself, unless it is something that is not a number. -/
theorem same_self_iff {k : NodeKind} :
    k.same k = true ↔ ∀ x, k = .number x → x.isNaN = false := by
  rw [same_iff]
  cases k with
  | number x =>
    refine Number.beq_self_iff.trans ⟨?_, fun numbers => numbers x rfl⟩
    rintro number y same
    obtain rfl := NodeKind.number.inj same
    exact number
  | _ => exact iff_of_true rfl fun _ other => by cases other

end NodeKind

/-! ## Terms -/

namespace Term

/-- The term without types and values. -/
def outline (t : Term) : Term :=
  t.mapKinds NodeKind.outline

/-- **Equality of terms**, with numbers compared as numbers. -/
inductive Equals : Term → Term → Prop
  | node {k l : NodeKind} {cs ds : List Term} (top : k.Equals l) (below : List.Forall₂ Equals cs ds) :
    Equals (.node k cs) (.node l ds)

theorem equals_node_iff {k l : NodeKind} {cs ds : List Term} :
    Equals (.node k cs) (.node l ds) ↔ k.Equals l ∧ List.Forall₂ Equals cs ds := by
  constructor
  · rintro (⟨top, below⟩)
    exact ⟨top, below⟩
  · rintro ⟨top, below⟩
    exact .node top below

theorem same_node_iff {k l : NodeKind} {cs ds : List Term} : (node k cs).same (node l ds) = true ↔
    k.same l = true ∧ List.Forall₂ (fun c d => c.same d = true) cs ds := by
  rw [same, Bool.and_eq_true, sameAll_iff]

/-- **Comparison of terms** is equality without types and values. -/
theorem same_iff {t u : Term} : t.same u = true ↔ t.outline.Equals u.outline := by
  induction t generalizing u with
  | node k cs ih =>
    obtain ⟨l, ds⟩ := u
    rw [same_node_iff, NodeKind.same_iff, outline, outline, mapKinds_node, mapKinds_node,
      equals_node_iff, List.forall₂_map_left_iff, List.forall₂_map_right_iff]
    refine and_congr_right fun _ => ⟨fun each => ?_, fun each => ?_⟩
    · exact forall₂_imp_of_mem each fun c mem d _ same => (ih c mem).1 same
    · exact forall₂_imp_of_mem each fun c mem d _ equal => (ih c mem).2 equal

theorem same_symm {t u : Term} (h : t.same u = true) : u.same t = true := by
  induction t generalizing u with
  | node k cs ih =>
    obtain ⟨l, ds⟩ := u
    obtain ⟨top, below⟩ := same_node_iff.1 h
    refine same_node_iff.2 ⟨NodeKind.same_symm top, List.Forall₂.flip ?_⟩
    exact forall₂_imp_of_mem below fun c mem d _ same => ih c mem same

theorem same_trans {t u v : Term} (first : t.same u = true) (second : u.same v = true) :
    t.same v = true := by
  induction t generalizing u v with
  | node k cs ih =>
    obtain ⟨l, ds⟩ := u
    obtain ⟨m, es⟩ := v
    obtain ⟨top, below⟩ := same_node_iff.1 first
    obtain ⟨top', below'⟩ := same_node_iff.1 second
    refine same_node_iff.2 ⟨NodeKind.same_trans top top', ?_⟩
    clear first second
    induction below generalizing es with
    | nil =>
      obtain rfl := List.forall₂_nil_left_iff.1 below'
      exact .nil
    | cons one _ later =>
      obtain ⟨here, others⟩ := List.forall_mem_cons.1 ih
      rcases below' with _ | ⟨two, rest⟩
      exact .cons (here one two) (later others _ rest)

/-- A term equals itself unless something in it is not a number. -/
theorem same_self_iff {t : Term} :
    t.same t = true ↔ ∀ x, .number x ∈ t.kinds → x.isNaN = false := by
  refine ⟨isNaN_of_same, fun numbers => ?_⟩
  induction t with
  | node k cs ih =>
    have inside : ∀ l ∈ (node k cs).kinds, ∀ x, l = .number x → x.isNaN = false := by
      rintro _ mem x rfl
      exact numbers x mem
    obtain ⟨top, below⟩ := forall_kinds_node.1 inside
    refine same_node_iff.2 ⟨NodeKind.same_self_iff.2 top, List.forall₂_same.2 fun c mem => ?_⟩
    exact ih c mem fun x found => below c mem _ found x rfl

end Term

/-! ## Formulas -/

namespace Formula

variable {f g h : Formula}

/-- **Matching is comparison of the terms**, if there are any. -/
theorem equiv_iff_rel (left : f.Acyclic) (right : g.Acyclic) :
    f.equiv g = true ↔ Option.Rel (fun t u => t.same u = true) f.term? g.term? := by
  have here : f.unfoldWithin (f.size + g.size + 1) 0 = f.term? :=
    unfoldWithin_of_acyclic left (by omega)
  have there : g.unfoldWithin (f.size + g.size + 1) 0 = g.term? :=
    unfoldWithin_of_acyclic right (by omega)
  rw [equiv, Bool.or_eq_true, Bool.and_eq_true, ← term?_eq_none_iff, ← term?_eq_none_iff, equivAt]
  simp only [here, there]
  cases f.term? <;> cases g.term? <;> simp

theorem Forest.equiv_iff (left : f.Forest) (right : g.Forest) :
    f.equiv g = true ↔ Option.Rel (fun t u => t.same u = true) f.term? g.term? :=
  equiv_iff_rel left.acyclicBelowRoot right.acyclicBelowRoot

/-- Comparison below two nodes compares the terms below them. -/
theorem Forest.equivAt_eq_same (left : f.Forest) (right : g.Forest) {id other : Nat} {t u : Term}
    (shown : f.unfold id = some t) (shown' : g.unfold other = some u) :
    f.equivAt id g other = t.same u := by
  have here : f.unfoldWithin (f.size + g.size + 1) id = f.unfold id :=
    unfoldWithin_of_reached (fun a _ => left.acyclic a) .refl (by omega)
  have there : g.unfoldWithin (f.size + g.size + 1) other = g.unfold other :=
    unfoldWithin_of_reached (fun a _ => right.acyclic a) .refl (by omega)
  simp only [equivAt, here, there, shown, shown']

/-- **Comparison goes node by node**: the nodes are locally equal, and their children are equal one
by one. -/
theorem Forest.equivAt_iff (left : f.Forest) (right : g.Forest) {id other : Nat} {n m : Node}
    (found : f.node? id = some n) (found' : g.node? other = some m) :
    f.equivAt id g other = true ↔ n.kind.same m.kind = true ∧
      List.Forall₂ (fun c d => f.equivAt c g d = true) n.children m.children := by
  rw [left.equivAt_eq_same right (left.unfold_eq found) (right.unfold_eq found'), Term.same_node_iff]
  refine and_congr_right fun _ => forall₂_filterMap_iff
    (fun c mem => exists_unfold_iff.2 (left.children_inside found c mem))
    (fun d mem => exists_unfold_iff.2 (right.children_inside found' d mem)) ?_
  intro c _ d _ t u under under'
  rw [left.equivAt_eq_same right under under']

theorem Forest.equiv_symm (left : f.Forest) (right : g.Forest) (same : f.equiv g = true) :
    g.equiv f = true := by
  rw [left.equiv_iff right] at same
  rw [right.equiv_iff left]
  generalize f.term? = o, g.term? = p at same
  cases same with
  | none => exact .none
  | some terms => exact .some (Term.same_symm terms)

theorem Forest.equiv_trans (left : f.Forest) (middle : g.Forest) (right : h.Forest)
    (first : f.equiv g = true) (second : g.equiv h = true) : f.equiv h = true := by
  rw [left.equiv_iff middle] at first
  rw [middle.equiv_iff right] at second
  rw [left.equiv_iff right]
  generalize f.term? = o, g.term? = p, h.term? = q at first second
  cases first with
  | none => exact second
  | some terms =>
    rcases second with ⟨others⟩
    exact .some (Term.same_trans terms others)

/-- **A formula matches itself** unless its root reaches something that is not a number. -/
theorem Forest.equiv_self_iff (forest : f.Forest) : f.equiv f = true ↔
    ∀ id n, ReflTransGen f.Child 0 id → f.node? id = some n →
      ∀ x, n.kind = .number x → x.isNaN = false := by
  rw [← forall_kinds_iff forest.acyclicBelowRoot (R := fun k => ∀ x, k = .number x → x.isNaN = false),
    forest.equiv_iff forest]
  cases shown : f.term? with
  | none => exact iff_of_true .none fun t other => by cases other
  | some t =>
    have self : Option.Rel (fun t u : Term => t.same u = true) (some t) (some t) ↔
        t.same t = true := by simp
    rw [self, Term.same_self_iff]
    constructor
    · rintro numbers _ same k mem x rfl
      obtain rfl := Option.some.inj same
      exact numbers x mem
    · intro numbers x mem
      exact numbers t rfl _ mem x rfl

/-- What is taken out at the root has the same term. -/
theorem term?_extract_zero (f : Formula) : (f.extract 0).term? = f.term? :=
  term?_ofTerm? f.term?

/-- **Compositions match** when the parts do, one by one, under a kind that equals itself. -/
theorem equiv_compose_iff {k : NodeKind} (number : ∀ x, k = .number x → x.isNaN = false)
    {fs gs : List Formula} (left : ∀ f ∈ fs, f.Forest ∧ f.isEmpty = false)
    (right : ∀ g ∈ gs, g.Forest ∧ g.isEmpty = false) :
    (compose k fs).equiv (compose k gs) = true ↔
      List.Forall₂ (fun f g => f.equiv g = true) fs gs := by
  have made : ∀ ps : List Formula, (compose k ps).Forest := fun _ => forest_ofTerm _
  rw [(made fs).equiv_iff (made gs), term?_compose, term?_compose, Option.rel_some_some,
    Term.same_node_iff, and_iff_right (NodeKind.same_self_iff.2 number)]
  refine forall₂_filterMap_iff (fun f mem => isEmpty_eq_false_iff.1 (left f mem).2)
    (fun g mem => isEmpty_eq_false_iff.1 (right g mem).2) ?_
  intro f inLeft g inRight t u first second
  rw [(left f inLeft).1.equiv_iff (right g inRight).1, first, second, Option.rel_some_some]

/-! ## Matching as a whole -/

/-- **What matching is.** Forests match when both are empty, or when the terms below their roots are
equal without types and values, so that it does not matter how the nodes are numbered, nor which
nodes there are besides. Matching is symmetric, transitive, and reflexive where all numbers that
the root reaches are numbers, and compositions match when their parts match one by one. -/
theorem equiv_iff_equals :
    (∀ f g : Formula, f.Forest → g.Forest →
      (f.equiv g = true ↔ f.isEmpty = true ∧ g.isEmpty = true ∨
        ∃ t u, f.Unfolds 0 t ∧ g.Unfolds 0 u ∧ t.outline.Equals u.outline) ∧
      f.equiv g = g.equiv f ∧ f.equiv g = (f.extract 0).equiv (g.extract 0)) ∧
    (∀ f g h : Formula, f.Forest → g.Forest → h.Forest →
      f.equiv g = true → g.equiv h = true → f.equiv h = true) ∧
    (∀ f : Formula, f.Forest → (f.equiv f = true ↔
      ∀ id n, ReflTransGen f.Child 0 id → f.node? id = some n →
        ∀ x, n.kind = .number x → x.isNaN = false)) ∧
    ∀ (k : NodeKind) (fs gs : List Formula), (∀ x, k = .number x → x.isNaN = false) →
      (∀ f ∈ fs, f.Forest ∧ f.isEmpty = false) → (∀ g ∈ gs, g.Forest ∧ g.isEmpty = false) →
      ((compose k fs).equiv (compose k gs) = true ↔
        List.Forall₂ (fun f g => f.equiv g = true) fs gs) := by
  refine ⟨fun f g left right => ⟨?_, ?_, ?_⟩, fun f g h => Forest.equiv_trans,
    fun f => Forest.equiv_self_iff, fun k fs gs number => equiv_compose_iff number⟩
  · rw [left.equiv_iff right, ← term?_eq_none_iff, ← term?_eq_none_iff]
    simp only [← left.unfold_eq_some_iff, ← right.unfold_eq_some_iff, ← Term.same_iff]
    change _ ↔ f.term? = none ∧ g.term? = none ∨ ∃ t u, f.term? = some t ∧ g.term? = some u ∧ _
    cases f.term? <;> cases g.term? <;> simp
  · rw [Bool.eq_iff_iff]
    exact ⟨left.equiv_symm right, right.equiv_symm left⟩
  · have part : ∀ f : Formula, (f.extract 0).Forest := fun f => forest_ofTerm? _
    rw [Bool.eq_iff_iff, left.equiv_iff right, (part f).equiv_iff (part g), term?_extract_zero,
      term?_extract_zero]

/-- A comparison that is numbered backwards and has a node besides, and the one that is composed:
they differ in types, in a value and in the sign of a zero. -/
theorem equiv_iff_equals_backwards :
    let read : Formula := ⟨#[⟨0, .expression .less, [2, 1]⟩, ⟨1, .number (-0.0), []⟩,
      ⟨2, .function ⟨"level", [.typed "a" "tank"], 3⟩, []⟩]⟩
    let f := (read.push .and).1
    let g := expression .less (.ofFluent (.ground "level" ["a"] 5)) (.number 0)
    f.Forest ∧ g.Forest ∧ (∃ t u, f.Unfolds 0 t ∧ g.Unfolds 0 u ∧ t.outline.Equals u.outline) ∧
      g.equiv f = true ∧ f.equiv f = true ∧ (f.extract 0).equiv (g.extract 0) = true ∧
      (disj [f, g]).equiv (disj [g, f]) = true := by
  intro read f g
  obtain ⟨pairs, transitive, _, congruent⟩ := equiv_iff_equals
  have records : ofRecords read.toRecords = .ok read := rfl
  have left : f.Forest := (forest_ofRecords records).push .and
  have right : g.Forest := forest_ofTerm _
  have same : f.equiv g = true := by decide +kernel
  obtain ⟨equal, symmetric, parts⟩ := pairs f g left right
  have back : g.equiv f = true := symmetric.symm.trans same
  have some_ : f.isEmpty = false ∧ g.isEmpty = false := ⟨rfl, rfl⟩
  refine ⟨left, right, ?_, back, transitive f g f left right left same back, parts.symm.trans same, ?_⟩
  · refine (equal.1 same).resolve_left fun none_ => ?_
    cases some_.1.symm.trans none_.1
  · refine (congruent .or [f, g] [g, f] (fun x other => by cases other) ?_ ?_).2
      (.cons same (.cons back .nil))
    · simp [left, right, some_]
    · simp [left, right, some_]

end Formula

end WorldModel
