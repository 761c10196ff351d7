/-
What the builders of formulas make.

`Made` collects everything that can be built: formulas read from records, extended node by
node, composed, taken apart and renamed, one operation after the other. Which numbers may be
given as parents is a parameter of it, because of one number: the one that the new node is
about to get is looked up as if it were a node already. **Main statement.**
`forest_of_made`: as long as this number is not given, all that can be built are forests; at
this number nothing is refused, and what comes out is none.

All operations but the reading of records add nodes behind their parents, which is the
matter of `Forest`. Records may list children in front of their parents, and what is read of
them is a forest for another reason (`forest_ofRecords`).
-/
import WorldModel.Proofs.Formula.Records

set_option autoImplicit false

namespace WorldModel.Formula

/-! ## Everything that can be built -/

/-- **What can be built** by the operations on formulas, if a parent may be given to a formula
of some size only when it is allowed. An operation that refuses makes nothing. The
connectives, operators and one-ofs are compositions, and clearing leaves the empty
formula. -/
inductive Made (allowed : Nat → Nat → Prop) : Formula → Prop
  | empty : Made allowed .empty
  | ofRecords {rs : List Record} {f : Formula} : ofRecords rs = .ok f → Made allowed f
  | push {f : Formula} (kind : NodeKind) : Made allowed f → Made allowed (f.push kind).1
  | pushChild {f g : Formula} {parent id : Nat} {kind : NodeKind} : Made allowed f →
    allowed f.size parent → f.pushChild parent kind = some (g, id) → Made allowed g
  | graft {f source g : Formula} {parent : Option Nat} {root id : Nat} : Made allowed f →
    Made allowed source → (∀ p, parent = some p → allowed f.size p) →
    f.graft parent source root = some (g, id) → Made allowed g
  | leaf (kind : NodeKind) : Made allowed (leaf kind)
  | compose (kind : NodeKind) {parts : List Formula} :
    (∀ p ∈ parts, Made allowed p) → Made allowed (compose kind parts)
  | fromSubtrees {tag : NodeTag} {parts : List Formula} {f : Formula} :
    (∀ p ∈ parts, Made allowed p) → fromSubtrees tag parts = some f → Made allowed f
  | extract {f : Formula} (id : Nat) : Made allowed f → Made allowed (f.extract id)
  | renameAtoms {f : Formula} (literalName fluentName : String → String) :
    Made allowed f → Made allowed (f.renameAtoms literalName fluentName)

theorem fromSubtrees_cases {tag : NodeTag} {parts : List Formula} {f : Formula}
    (joined : Formula.fromSubtrees tag parts = some f) :
    (∃ kind ps, f = Formula.compose kind ps) ∨ f ∈ parts := by
  have among : ∀ p, parts.filter (fun p => !p.isEmpty) = [p] → p ∈ parts := by
    intro p single
    have mem : p ∈ parts.filter fun p => !p.isEmpty := by
      rw [single]
      exact List.mem_singleton_self p
    exact List.mem_of_mem_filter mem
  unfold Formula.fromSubtrees at joined
  split at joined
  · cases joined
  · exact .inl ⟨_, _, (Option.some.inj joined).symm⟩
  · exact .inl ⟨_, _, (Option.some.inj joined).symm⟩
  · exact .inl ⟨_, _, (Option.some.inj joined).symm⟩
  · exact .inl ⟨_, _, (Option.some.inj joined).symm⟩
  · next single =>
    obtain rfl := Option.some.inj joined
    exact .inr (among _ single)
  · cases joined

theorem made_forest {f : Formula} (made : Made (fun size parent => parent ≠ size) f) : f.Forest := by
  induction made with
  | empty => exact forest_empty
  | ofRecords read => exact forest_ofRecords read
  | push kind _ forest => exact forest.push kind
  | pushChild _ other pushed forest => exact forest_pushChild forest other pushed
  | graft _ _ other grafted forest _ =>
    exact forest_graft forest (fun same => other _ same rfl) grafted
  | leaf kind => exact forest_ofTerm _
  | compose kind _ _ => exact forest_ofTerm _
  | fromSubtrees _ joined forests =>
    rcases fromSubtrees_cases joined with ⟨kind, ps, rfl⟩ | mem
    · exact forest_ofTerm _
    · exact forests _ mem
  | extract id _ _ => exact forest_ofTerm? _
  | renameAtoms p q _ forest => exact forest_renameAtoms forest p q

/-- **Everything that can be built is a forest**, if no node is put below the number that it is
about to get. A parent beyond this number is refused and a node is taken, so at this number
alone one is taken that is none; what comes out is then no forest any more. -/
theorem forest_of_made {f : Formula} (made : Made (fun size parent => parent ≠ size) f) :
    f.Forest ∧ (∀ parent kind, f.pushChild parent kind = none ↔ f.size < parent) ∧
      ∀ kind, ∃ g, f.pushChild f.size kind = some (g, f.size) ∧ ¬ g.Forest := by
  refine ⟨made_forest made, fun parent kind => pushChild_eq_none_iff, fun kind => ?_⟩
  cases pushed : f.pushChild f.size kind with
  | none => exact absurd (pushChild_eq_none_iff.1 pushed) (Nat.lt_irrefl _)
  | some result =>
    obtain ⟨g, id⟩ := result
    obtain ⟨rfl, _⟩ := attach_of_pushChild pushed
    exact ⟨g, rfl, not_forest_pushChild_size pushed⟩

/-- Records that list a child in front of its parent, one more child below the last of them,
and a copy of it all below the root. -/
theorem forest_of_made_records :
    let f : Formula := ⟨#[⟨0, .and, [2]⟩, ⟨1, .predicate (.positive "p" ["a"]), []⟩, ⟨2, .or, [1]⟩]⟩
    let g : Formula := ⟨f.nodes.modify 2 (fun n => { n with children := [1, 3] }) ++ #[⟨3, .or, []⟩]⟩
    ofRecords f.toRecords = .ok f ∧ f.pushChild 2 .or = some (g, 3) ∧
      ∃ h, g.graft (some 0) f 2 = some (h, 4) ∧ h.Forest ∧ h.pushChild 7 .and = none := by
  intro f g
  have read : ofRecords f.toRecords = .ok f := rfl
  have pushed : f.pushChild 2 .or = some (g, 3) := rfl
  obtain ⟨h, grafted⟩ : ∃ h, g.graft (some 0) f 2 = some (h, 4) := ⟨_, rfl⟩
  have first : Made (fun size parent => parent ≠ size) f := .ofRecords read
  have second : Made (fun size parent => parent ≠ size) g := .pushChild first (by decide) pushed
  have made : Made (fun size parent => parent ≠ size) h :=
    .graft second first (fun p same => by obtain rfl := Option.some.inj same; decide) grafted
  have size : h.size = 6 := by
    obtain rfl := (Prod.mk.inj (Option.some.inj grafted)).1
    rfl
  obtain ⟨forest, refuses, _⟩ := forest_of_made made
  exact ⟨read, pushed, h, grafted, forest, (refuses 7 .and).2 (by omega)⟩

/-- **A parent that is no node is taken**: pushed below the number that it is about to get, a
node becomes its own child. -/
theorem exists_made_with_self_child :
    ∃ f g, Made (fun _ _ => True) f ∧ f.node? 1 = none ∧ f.pushChild 1 .and = some (g, 1) ∧
      Made (fun _ _ => True) g ∧ g.Child 1 1 ∧ ¬ g.Forest := by
  have made : Made (fun _ _ => True) (.leaf .and) := .leaf .and
  have pushed : (Formula.leaf .and).pushChild 1 .and = some (⟨#[⟨0, .and, []⟩, ⟨1, .and, [1]⟩]⟩, 1) :=
    rfl
  have loop : Formula.Child ⟨#[⟨0, .and, []⟩, ⟨1, .and, [1]⟩]⟩ 1 1 :=
    ⟨⟨1, .and, [1]⟩, rfl, List.mem_singleton_self 1⟩
  exact ⟨_, _, made, rfl, pushed, .pushChild made trivial pushed, loop, not_forest_of_child_self loop⟩

end WorldModel.Formula
