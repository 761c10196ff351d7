/-
The three shapes of contingent facts, seen as a head over a list of literals.

A formula passes the check of shapes when its root is UNKNOWN over one PREDICATE node,
ONE_OF over at least one, or OR over two. If moreover nothing stands below the PREDICATE
nodes, then the formula is determined by its head and the literals it lists (`Lists`):
its term, its validity, its spelling and whether it is stored as a fact can be read off
the two. Everything that worlds do with contingent facts is stated with this view, and
no statement further on looks at nodes of a contingent fact.
-/
import WorldModel.Proofs.World.Validity
import WorldModel.World.Cascade

set_option autoImplicit false

namespace WorldModel

/-- **The heads of contingent facts**, with the number of literals below them. -/
inductive Heads : NodeKind → Nat → Prop
  | unknown : Heads .unknown 1
  | oneOf {count : Nat} : count ≠ 0 → Heads .oneOf count
  | or : Heads .or 2

theorem Heads.keyword?_ne_none {k : NodeKind} {count : Nat} (head : Heads k count) :
    k.keyword? ≠ none := by
  rcases head with _ | _ | _ <;> simp [NodeKind.keyword?]

theorem Heads.literal?_eq_none {k : NodeKind} {count : Nat} (head : Heads k count) :
    k.literal? = none := by
  rcases head with _ | _ | _ <;> rfl

theorem Heads.fluent?_eq_none {k : NodeKind} {count : Nat} (head : Heads k count) :
    k.fluent? = none := by
  rcases head with _ | _ | _ <;> rfl

theorem Heads.ne_not {k : NodeKind} {count : Nat} (head : Heads k count) : k ≠ .not := by
  rcases head with _ | _ | _ <;> simp

theorem Heads.count_of_unknown {count : Nat} (head : Heads .unknown count) : count = 1 := by
  cases head
  rfl

theorem Heads.count_ne_zero {k : NodeKind} {count : Nat} (head : Heads k count) : count ≠ 0 := by
  rcases head with _ | nonzero | _
  · decide
  · exact nonzero
  · decide

theorem Heads.rename {k : NodeKind} {count : Nat} (head : Heads k count)
    (literalName fluentName : String → String) : k.rename literalName fluentName = k := by
  rcases head with _ | _ | _ <;> rfl

/-- The tags and numbers that the check of shapes admits are those of the heads. -/
theorem heads_iff {k : NodeKind} {count : Nat} :
    Heads k count ↔ ∃ admits, contingentArity? k.tag = some admits ∧ admits count = true := by
  constructor
  · rintro (_ | nonzero | _)
    · exact ⟨_, rfl, rfl⟩
    · exact ⟨_, rfl, by simpa using nonzero⟩
    · exact ⟨_, rfl, rfl⟩
  · rintro ⟨admits, tag, count⟩
    match k with
    | .unknown =>
      cases tag
      obtain rfl := beq_iff_eq.1 count
      exact .unknown
    | .oneOf =>
      cases tag
      exact .oneOf (by simpa using count)
    | .or =>
      cases tag
      obtain rfl := beq_iff_eq.1 count
      exact .or
    | .and | .not | .predicate _ | .function _ | .expression _ | .update _ | .number _ => cases tag

/-! ## Shapes do not depend on names -/

theorem NodeKind.tag_rename (k : NodeKind) (literalName fluentName : String → String) :
    (k.rename literalName fluentName).tag = k.tag := by
  cases k <;> rfl

theorem isPredicateNode_renameAtoms (f : Formula) (literalName fluentName : String → String)
    (id : Nat) : isPredicateNode (f.renameAtoms literalName fluentName) id = isPredicateNode f id := by
  unfold isPredicateNode
  rw [Formula.node?_renameAtoms]
  cases f.node? id with
  | none => rfl
  | some n => simp only [Option.map_some, NodeKind.tag_rename]

/-- **The check of shapes** does not look at names. -/
theorem shapeFault?_renameAtoms (f : Formula) (literalName fluentName : String → String) :
    shapeFault? (f.renameAtoms literalName fluentName) = shapeFault? f := by
  have predicates : isPredicateNode (f.renameAtoms literalName fluentName) = isPredicateNode f :=
    funext (isPredicateNode_renameAtoms f literalName fluentName)
  unfold shapeFault? Formula.root?
  rw [Formula.node?_renameAtoms, predicates]
  cases f.node? 0 with
  | none => rfl
  | some n => simp only [Option.map_some, NodeKind.tag_rename]

namespace Formula

/-! ## A head over literals -/

/-- The root has the kind, and its children are PREDICATE nodes of the literals with
nothing below them. -/
def Lists (f : Formula) (k : NodeKind) (ls : List Literal) : Prop :=
  ∃ n, f.root? = some n ∧ n.kind = k ∧
    List.Forall₂ (fun c l => ∃ m, f.node? c = some m ∧ m.kind = .predicate l ∧ m.children = [])
      n.children ls

/-- **The term** of such a formula is flat. -/
theorem Lists.term?_eq {f : Formula} {k : NodeKind} {ls : List Literal} (lists : f.Lists k ls)
    (head : k.keyword? ≠ none) : f.term? = some (.flat k ls) := by
  obtain ⟨n, root, rfl, each⟩ := lists
  -- no leaf is the root, so that there is room for one level below it
  have leaf_unfold : ∀ c l, (∃ m, f.node? c = some m ∧ m.kind = .predicate l ∧ m.children = []) →
      f.unfoldWithin (f.size - 1) c = some (.node (.predicate l) []) := by
    rintro c l ⟨m, found, kind, below⟩
    have nonzero : c ≠ 0 := by
      rintro rfl
      have same : m = n := Option.some.inj (found.symm.trans root)
      rw [← same, kind] at head
      exact head rfl
    obtain ⟨inside, _⟩ := Array.getElem?_eq_some_iff.1 found
    obtain ⟨depth, deep⟩ : ∃ depth, f.size - 1 = depth + 1 := ⟨f.size - 2, by rw [size]; omega⟩
    rw [deep, unfoldWithin_of_node? found, kind, below, List.filterMap_nil]
  have unfolded : n.children.filterMap (f.unfoldWithin (f.size - 1)) =
      ls.map fun l => .node (.predicate l) [] := by
    generalize n.children = cs at each
    induction each with
    | nil => rfl
    | cons leaf _ ih => rw [List.filterMap_cons_some (leaf_unfold _ _ leaf), ih, List.map_cons]
  rw [term?_of_root? root, unfolded, Term.flat]

/-- Renaming goes to the literals, if the head has no name. -/
theorem Lists.renameAtoms {f : Formula} {k : NodeKind} {ls : List Literal} (lists : f.Lists k ls)
    {literalName fluentName : String → String} (head : k.rename literalName fluentName = k) :
    (f.renameAtoms literalName fluentName).Lists k
      (ls.map fun l => { l with name := literalName l.name }) := by
  obtain ⟨n, root, rfl, each⟩ := lists
  have renamed : ∀ id m, f.node? id = some m →
      (f.renameAtoms literalName fluentName).node? id =
        some { m with kind := m.kind.rename literalName fluentName } := by
    intro id m found
    rw [node?_renameAtoms, found, Option.map_some]
  refine ⟨_, renamed 0 n root, head, List.forall₂_map_right_iff.2 (each.imp ?_)⟩
  rintro c l ⟨m, found, kind, below⟩
  refine ⟨_, renamed c m found, ?_, below⟩
  simp only [kind, NodeKind.rename]

/-- The leaves below the top of a flat term stand one behind the other. -/
theorem forall₂_tops_of_holdsAt {f : Formula} {ls : List Literal} {start : Nat}
    (stands : f.HoldsAt start
      (Term.nodesFromAll start (ls.map fun l => .node (.predicate l) []))) :
    List.Forall₂ (fun c l => ∃ m, f.node? c = some m ∧ m.kind = .predicate l ∧ m.children = [])
      (Term.tops start (ls.map fun l => .node (.predicate l) [])) ls := by
  induction ls generalizing start with
  | nil => exact .nil
  | cons l ls ih =>
    rw [List.map_cons, Term.nodesFromAll] at stands
    have first := stands.left.head
    have later := stands.right
    rw [Term.length_nodesFrom] at later
    exact .cons ⟨_, first, rfl, rfl⟩ (ih later)

theorem lists_ofTerm (k : NodeKind) (ls : List Literal) : (ofTerm (.flat k ls)).Lists k ls := by
  have stands : (ofTerm (.flat k ls)).HoldsAt 0 ((Term.flat k ls).nodesFrom 0) := by
    intro i _
    simp [ofTerm, node?]
  exact ⟨_, root?_ofTerm _, rfl, forall₂_tops_of_holdsAt stands.tail⟩

theorem oneOf_eq (ls : List Literal) : oneOf ls = ofTerm (.flat .oneOf ls) := by
  have parts : (ls.map ofLiteral).filterMap term? = ls.map fun l => .node (.predicate l) [] := by
    have each : term? ∘ ofLiteral = fun l => some (.node (.predicate l) []) :=
      funext fun l => term?_ofTerm _
    rw [List.filterMap_map, each, List.filterMap_eq_map']
  rw [oneOf, compose, parts, Term.flat]

theorem lists_oneOf (ls : List Literal) : (oneOf ls).Lists .oneOf ls := by
  rw [oneOf_eq]
  exact lists_ofTerm .oneOf ls

/-! ## Shapes -/

/-- **A proper shape** is a head over literals. -/
theorem Lists.shapeFault?_eq_none {f : Formula} {k : NodeKind} {ls : List Literal}
    (lists : f.Lists k ls) (head : Heads k ls.length) : shapeFault? f = none := by
  obtain ⟨n, root, rfl, each⟩ := lists
  obtain ⟨admits, tag, count⟩ := heads_iff.1 head
  have predicates : n.children.all (isPredicateNode f) = true := by
    refine List.all_eq_true.2 fun c mem => ?_
    obtain ⟨l, _, m, found, kind, _⟩ := exists_mem_of_forall₂ each mem
    rw [isPredicateNode, found]
    simp [kind, NodeKind.tag]
  rw [shapeFault?, root]
  simp only [tag, each.length_eq, count, predicates]
  rfl

/-- A proper shape is a head over nodes of literals. -/
theorem exists_root_of_shapeFault? {f : Formula} (shape : shapeFault? f = none) :
    ∃ n, f.root? = some n ∧ Heads n.kind n.children.length ∧
      ∀ c ∈ n.children, ∃ l m, f.node? c = some m ∧ m.kind = .predicate l := by
  rw [shapeFault?] at shape
  cases root : f.root? with
  | none =>
    rw [root] at shape
    cases shape
  | some n =>
    cases tag : contingentArity? n.kind.tag with
    | none => simp [root, tag] at shape
    | some admits =>
      cases count : admits n.children.length with
      | false => simp [root, tag, count] at shape
      | true =>
        have predicates : ∀ c ∈ n.children, isPredicateNode f c = true := by
          simpa [root, tag, count] using shape
        refine ⟨n, rfl, heads_iff.2 ⟨admits, tag, count⟩, fun c mem => ?_⟩
        have is := predicates c mem
        rw [isPredicateNode] at is
        cases found : f.node? c with
        | none =>
          rw [found] at is
          cases is
        | some m =>
          have tagged : m.kind.tag = .predicate := by simpa [found] using is
          match kind : m.kind, tagged with
          | .predicate l, _ => exact ⟨l, m, rfl, kind⟩

/-- Nothing stands below the children of the root. -/
def Flat (f : Formula) : Prop :=
  ∀ n, f.root? = some n → ∀ c ∈ n.children, ∀ m, f.node? c = some m → m.children = []

instance (f : Formula) : Decidable f.Flat :=
  inferInstanceAs (Decidable (∀ n ∈ f.root?, ∀ c ∈ n.children, ∀ m ∈ f.node? c, m.children = []))

/-- **A flat formula of a proper shape** is a head over literals. -/
theorem exists_lists_of_flat {f : Formula} (flat : f.Flat) (shape : shapeFault? f = none) :
    ∃ k ls, f.Lists k ls ∧ Heads k ls.length := by
  obtain ⟨n, root, head, predicates⟩ := exists_root_of_shapeFault? shape
  have leaf : ∀ c ∈ n.children, ∃ l m, f.node? c = some m ∧ m.kind = .predicate l ∧
      m.children = [] := by
    intro c mem
    obtain ⟨l, m, found, kind⟩ := predicates c mem
    exact ⟨l, m, found, kind, flat n root c mem m found⟩
  obtain ⟨ls, each⟩ := exists_forall₂ leaf
  rw [each.length_eq] at head
  exact ⟨n.kind, ls, ⟨n, root, rfl, each⟩, head⟩

/-- A formula of bare leaves and a proper shape is flat, and so a head over literals. -/
theorem exists_lists_of_shapeFault? {f : Formula} (bare : f.BareLeaves)
    (shape : shapeFault? f = none) : ∃ k ls, f.Lists k ls ∧ Heads k ls.length := by
  refine exists_lists_of_flat (fun n root c mem m found => ?_) shape
  obtain ⟨_, same, _, predicates⟩ := exists_root_of_shapeFault? shape
  obtain rfl := Option.some.inj (root.symm.trans same)
  obtain ⟨l, _, here, kind⟩ := predicates c mem
  obtain rfl := Option.some.inj (found.symm.trans here)
  exact bare m (Array.mem_of_getElem? found) (by rw [kind]; rfl)

/-- A head over literals has no cycles: nothing stands below its children. -/
theorem Lists.acyclic {f : Formula} {k : NodeKind} {ls : List Literal} (lists : f.Lists k ls) :
    f.Acyclic := by
  obtain ⟨n, root, _, each⟩ := lists
  have listed : ∀ b, f.Child 0 b → b ∈ n.children := by
    rintro b ⟨m, found, mem⟩
    obtain rfl := Option.some.inj (root.symm.trans found)
    exact mem
  have ends : ∀ b ∈ n.children, ∀ c, ¬ f.Child b c := by
    rintro b mem c ⟨m, found, inside⟩
    obtain ⟨_, _, _, here, _, none_⟩ := exists_mem_of_forall₂ each mem
    obtain rfl := Option.some.inj (found.symm.trans here)
    rw [none_] at inside
    cases inside
  have reached : ∀ id, Relation.ReflTransGen f.Child 0 id → id = 0 ∨ id ∈ n.children := by
    intro id path
    induction path with
    | refl => exact .inl rfl
    | tail _ step ih =>
      rcases ih with rfl | mem
      · exact .inr (listed _ step)
      · exact absurd step (ends _ mem _)
  intro id path cycle
  obtain ⟨b, later, last⟩ := Relation.TransGen.tail'_iff.1 cycle
  -- the last step of the cycle starts at the root, and leads to a node at which all ends
  have back : id ∈ n.children := by
    rcases reached b (path.trans later) with rfl | mem
    · exact listed id last
    · exact absurd last (ends b mem id)
  obtain ⟨c, first, _⟩ := Relation.TransGen.head'_iff.1 cycle
  exact ends id back c first

end Formula

end WorldModel
