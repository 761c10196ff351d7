/-
Formulas handed over as records and back.

A record has room for whatever a node of any kind may carry. What a node does not carry is
empty in its record, and what its tag does not use is not looked at when the record is read. So
two things have to fit together for each kind: what is written into its record, and what is read
from it. **Main statement.** `ofRecords_toRecords`, in three parts. The records of a forest are
read back as that very forest if its root reaches every node and every atom has a name; otherwise
they are refused, and the fault that is named is there. All formulas that are composed, taken
apart or read from text are such forests. And records that are read are written again as they
were, cleared of what their tags do not use (`Record.cleared`).

The second part rests on numbering: composing, taking apart and reading make nothing but numbered
terms (`exists_ofTerm?_of_composed`), and the root of a numbered term reaches every node
(`reached_ofTerm`).
-/
import WorldModel.Problem.Reader
import WorldModel.Proofs.Formula.Below
import WorldModel.Proofs.Formula.Builders

set_option autoImplicit false

namespace WorldModel

open Relation (ReflTransGen TransGen)

/-! ## One record -/

/-- **The atom has a name**, if the kind is one. -/
def NodeKind.Named : NodeKind → Prop
  | predicate l => l.name ≠ ""
  | function f => f.name ≠ ""
  | _ => True

instance : DecidablePred NodeKind.Named
  | .predicate l => inferInstanceAs (Decidable (l.name ≠ ""))
  | .function f => inferInstanceAs (Decidable (f.name ≠ ""))
  | .and | .or | .not | .unknown | .oneOf | .expression _ | .update _ | .number _ => .isTrue trivial

/-- **The record without what its tag does not use**: names and arguments belong to atoms, a sign
to a literal, a value to a fluent or a number, and the operators to their own tags. -/
def Record.cleared (r : Record) : Record :=
  let isAtom := r.tag == .predicate || r.tag == .function
  { r with
    name := if isAtom then r.name else ""
    args := if isAtom then r.args else []
    negated := if r.tag == .predicate then r.negated else false
    value := if r.tag == .function || r.tag == .number then r.value else 0
    operator := if r.tag == .expression then r.operator else none
    update := if r.tag == .update then r.update else none }

@[simp] theorem Node.tag_toRecord (n : Node) : n.toRecord.tag = n.kind.tag := by
  obtain ⟨id, kind, children⟩ := n
  cases kind <;> rfl

@[simp] theorem Node.id_toRecord (n : Node) : n.toRecord.id = n.id := by
  obtain ⟨id, kind, children⟩ := n
  cases kind <;> rfl

@[simp] theorem Node.children_toRecord (n : Node) : n.toRecord.children = n.children := by
  obtain ⟨id, kind, children⟩ := n
  cases kind <;> rfl

/-- **What is written of a kind is read as that kind**; all that its record can lack is the name
of its atom. -/
theorem Node.kind_toRecord (n : Node) :
    n.toRecord.kind = if n.kind.Named then .ok n.kind else .error "name" := by
  obtain ⟨id, kind, children⟩ := n
  cases kind with
  | predicate l => exact (ite_not _ _ _).symm
  | function f => exact (ite_not _ _ _).symm
  | _ => rfl

/-- **What is read from a record** is written as the record without what its tag does not use. -/
theorem Record.toRecord_of_kind {r : Record} {k : NodeKind} (read : r.kind = .ok k) :
    Node.toRecord ⟨r.id, k, r.children⟩ = r.cleared := by
  obtain ⟨tag, id, children, name, args, negated, value, operator, update⟩ := r
  cases tag with
  | predicate =>
    by_cases blank : name = ""
    · cases (if_pos blank).symm.trans read
    · obtain rfl := Except.ok.inj ((if_neg blank).symm.trans read)
      rfl
  | function =>
    by_cases blank : name = ""
    · cases (if_pos blank).symm.trans read
    · obtain rfl := Except.ok.inj ((if_neg blank).symm.trans read)
      rfl
  | expression =>
    cases operator with
    | none => cases read
    | some op =>
      obtain rfl := Except.ok.inj read
      rfl
  | update =>
    cases update with
    | none => cases read
    | some op =>
      obtain rfl := Except.ok.inj read
      rfl
  | _ =>
    obtain rfl := Except.ok.inj read
    rfl

/-! ## Lists of records -/

section Lists

variable {rs : List Record} {ns : List Node} {index : Nat}

/-- Nodes that carry their positions and whose atoms have names are made again of their
records. -/
theorem nodesOfRecords_map_toRecord (numbered : ∀ i n, ns[i]? = some n → n.id = index + i)
    (named : ∀ n ∈ ns, n.kind.Named) : nodesOfRecords index (ns.map Node.toRecord) = .ok ns := by
  induction ns generalizing index with
  | nil => rfl
  | cons n ns ih =>
    obtain ⟨first, others⟩ := List.forall_mem_cons.1 named
    have here : n.id = index := numbered 0 n rfl
    have next : ∀ i m, ns[i]? = some m → m.id = index + 1 + i := by
      intro i m found
      have := numbered (i + 1) m (by simpa using found)
      omega
    have later := ih next others
    have node : n.toRecord.node index = .ok n := by
      rw [Record.node, n.kind_toRecord, if_pos first, n.children_toRecord, ← here]
    rw [List.map_cons, nodesOfRecords]
    exact bind_eq_ok_iff.2 ⟨n, node, bind_eq_ok_iff.2 ⟨ns, later, rfl⟩⟩

/-- A list of records is refused at a record that lacks what its tag needs. -/
theorem exists_of_nodesOfRecords_eq_error {e : FormulaError}
    (refused : nodesOfRecords index rs = .error e) :
    ∃ i r field, rs[i]? = some r ∧ r.kind = .error field ∧
      e = .incomplete (index + i) r.tag field := by
  induction rs generalizing index with
  | nil => cases refused
  | cons r rs ih =>
    unfold nodesOfRecords at refused
    cases kind : r.kind with
    | error field =>
      refine ⟨0, r, field, rfl, kind, ?_⟩
      simp only [Record.node, kind] at refused
      exact (Except.error.inj refused).symm
    | ok k =>
      simp only [Record.node, kind] at refused
      cases later : nodesOfRecords (index + 1) rs with
      | ok ns =>
        rw [later] at refused
        cases refused
      | error e' =>
        rw [later] at refused
        obtain rfl := Except.error.inj refused
        obtain ⟨i, s, field, found, lacks, rfl⟩ := ih later
        exact ⟨i + 1, s, field, by simpa using found, lacks, by congr 1; omega⟩

/-- **The nodes of records** that carry their positions are written as the records without what
their tags do not use. -/
theorem map_toRecord_of_nodesOfRecords (numbered : ∀ i r, rs[i]? = some r → r.id = index + i)
    (made : nodesOfRecords index rs = .ok ns) : ns.map Node.toRecord = rs.map Record.cleared := by
  induction rs generalizing index ns with
  | nil =>
    obtain rfl := Except.ok.inj made
    rfl
  | cons r rs ih =>
    unfold nodesOfRecords at made
    obtain ⟨n, first, made⟩ := bind_eq_ok_iff.1 made
    obtain ⟨ms, later, made⟩ := bind_eq_ok_iff.1 made
    obtain rfl := Except.ok.inj made
    have here : r.id = index := numbered 0 r rfl
    have top : n.toRecord = r.cleared := by
      unfold Record.node at first
      split at first
      · next k kind =>
        obtain rfl := Except.ok.inj first
        rw [← here]
        exact r.toRecord_of_kind kind
      · cases first
    have next : ∀ i s, rs[i]? = some s → s.id = index + 1 + i := by
      intro i s found
      have := numbered (i + 1) s (by simpa using found)
      omega
    have others := ih next later
    rw [List.map_cons, List.map_cons, top, others]

end Lists

namespace Formula

/-! ## Records of a forest -/

section Forest

variable {f : Formula}

theorem node?_iff_getElem?_toList {i : Nat} {n : Node} :
    f.nodes.toList[i]? = some n ↔ f.node? i = some n := by
  rw [Array.getElem?_toList, node?]

theorem length_toRecords (f : Formula) : f.toRecords.length = f.size := by
  rw [toRecords, List.length_map, Array.length_toList, size]

theorem flatMap_children_toRecords (f : Formula) :
    f.toRecords.flatMap Record.children = f.childList := by
  rw [toRecords, List.flatMap_map, childList]
  exact List.flatMap_congr fun n _ => n.children_toRecord

theorem recordChild_toRecords (f : Formula) : RecordChild f.toRecords = f.Child := by
  funext a b
  rw [RecordChild, Child, toRecords]
  simp only [List.getElem?_map, Option.map_eq_some_iff, node?_iff_getElem?_toList]
  apply propext
  constructor
  · rintro ⟨_, ⟨n, found, rfl⟩, mem⟩
    exact ⟨n, found, by rwa [n.children_toRecord] at mem⟩
  · rintro ⟨n, found, mem⟩
    exact ⟨n.toRecord, ⟨n, found, rfl⟩, by rwa [n.children_toRecord]⟩

/-- **Fit to be handed over**: the root reaches every node, and every atom has a name. -/
structure Exchangeable (f : Formula) : Prop where
  reached : ∀ id < f.size, ReflTransGen f.Child 0 id
  named : ∀ n ∈ f.nodes, n.kind.Named

theorem recordChild_toRecords_inside (forest : f.Forest) (a c : Nat)
    (edge : RecordChild f.toRecords a c) : c < f.toRecords.length := by
  rw [recordChild_toRecords] at edge
  rw [length_toRecords]
  exact forest.inside c (mem_childList.2 ⟨a, edge⟩)

/-- The records of a forest pass the checks that come before the search. -/
theorem checks_toRecords (forest : f.Forest) :
    numberingFault? f.toRecords.length 0 f.toRecords = none ∧
      ∀ id < f.toRecords.length, isShared f.toRecords id = false := by
  have inside := recordChild_toRecords_inside forest
  refine ⟨numberingFault?_eq_none_iff.2 ⟨fun i r found => ?_, fun r mem c child => ?_⟩, ?_⟩
  · rw [toRecords, List.getElem?_map] at found
    obtain ⟨n, here, rfl⟩ := Option.map_eq_some_iff.1 found
    rw [n.id_toRecord, forest.numbered i n (node?_iff_getElem?_toList.1 here), Nat.zero_add]
  · obtain ⟨a, found⟩ := List.mem_iff_getElem?.1 mem
    exact inside a c ⟨r, found, child⟩
  · rw [forall_isShared_iff inside, flatMap_children_toRecords]
    exact ⟨forest.distinct, forest.top⟩

/-- The search meets the nodes that the root reaches. -/
theorem mem_reached_toRecords (forest : f.Forest) {id : Nat} (within : id < f.size) :
    id ∈ reached f.toRecords ↔ ReflTransGen f.Child 0 id := by
  have nonempty : f.toRecords ≠ [] := by
    intro none_
    have length := length_toRecords f
    rw [none_, List.length_nil] at length
    omega
  rw [mem_reached_iff (recordChild_toRecords_inside forest) nonempty, recordChild_toRecords]

/-- **A forest that is fit for it** is read back from its records. -/
theorem Exchangeable.ofRecords_eq_ok (fit : f.Exchangeable) (forest : f.Forest) :
    ofRecords f.toRecords = .ok f := by
  obtain ⟨numbers, single⟩ := checks_toRecords forest
  rw [ofRecords_eq_ok_iff]
  refine ⟨numbers, single, fun id within => ?_, f.nodes.toList, ?_, rfl⟩
  · rw [length_toRecords] at within
    exact (mem_reached_toRecords forest within).2 (fit.reached id within)
  · refine nodesOfRecords_map_toRecord (fun i n found => ?_) fun n mem => ?_
    · rw [forest.numbered i n (node?_iff_getElem?_toList.1 found), Nat.zero_add]
    · exact fit.named n (Array.mem_toList_iff.1 mem)

/-- Nothing else can be read from records of a formula than what is fit to be handed over. -/
theorem exchangeable_of_ofRecords {g : Formula} (read : ofRecords f.toRecords = .ok g) :
    f.Exchangeable := by
  obtain ⟨_, _, reached, carries⟩ := exists_ofRecords_iff.1 ⟨g, read⟩
  rw [recordChild_toRecords, length_toRecords] at reached
  refine ⟨reached, fun n mem => ?_⟩
  obtain ⟨k, kind⟩ := Record.carries_iff.1
    (carries n.toRecord (List.mem_map_of_mem (Array.mem_toList_iff.2 mem)))
  by_contra blank
  rw [n.kind_toRecord, if_neg blank] at kind
  cases kind

/-- **What a fault says of the formula**: a node that the root does not reach, or an atom
without a name. -/
def Faulty (f : Formula) (e : FormulaError) : Prop :=
  (∃ id < f.size, ¬ ReflTransGen f.Child 0 id ∧ e = .unreachable id) ∨
    ∃ id n, f.node? id = some n ∧ ¬ n.kind.Named ∧ e = .incomplete id n.kind.tag "name"

/-- **Records of a forest that are refused** are refused for a fault that the forest has. -/
theorem faulty_of_ofRecords (forest : f.Forest) {e : FormulaError}
    (refused : ofRecords f.toRecords = .error e) : f.Faulty e := by
  obtain ⟨numbers, single⟩ := checks_toRecords forest
  have noneShared : (List.range f.toRecords.length).find? (isShared f.toRecords) = none := by
    rw [List.find?_eq_none]
    intro id mem
    simp [single id (List.mem_range.1 mem)]
  unfold ofRecords at refused
  simp only [numbers, noneShared] at refused
  cases lost : (List.range f.toRecords.length).find? fun id => !(reached f.toRecords).contains id with
  | some id =>
    simp only [lost] at refused
    obtain rfl := Except.error.inj refused
    have within := List.mem_range.1 (List.mem_of_find?_eq_some lost)
    rw [length_toRecords] at within
    have missed := List.find?_some lost
    refine .inl ⟨id, within, fun path => ?_, rfl⟩
    simp [(mem_reached_toRecords forest within).2 path] at missed
  | none =>
    simp only [lost] at refused
    cases made : nodesOfRecords 0 f.toRecords with
    | ok ns =>
      rw [made] at refused
      cases refused
    | error e' =>
      rw [made] at refused
      obtain rfl := Except.error.inj refused
      obtain ⟨i, r, field, found, lacks, rfl⟩ := exists_of_nodesOfRecords_eq_error made
      rw [toRecords, List.getElem?_map] at found
      obtain ⟨n, here, rfl⟩ := Option.map_eq_some_iff.1 found
      rw [n.kind_toRecord] at lacks
      split at lacks
      · cases lacks
      · next blank =>
        obtain rfl := Except.error.inj lacks
        refine .inr ⟨i, n, node?_iff_getElem?_toList.1 here, blank, ?_⟩
        rw [n.tag_toRecord, Nat.zero_add]

end Forest

/-! ## Records that are read -/

/-- **Records that are read** are written again without what their tags do not use. -/
theorem toRecords_of_ofRecords {rs : List Record} {f : Formula} (read : ofRecords rs = .ok f) :
    f.toRecords = rs.map Record.cleared := by
  obtain ⟨⟨numbered, _⟩, _⟩ := exists_ofRecords_iff.1 ⟨f, read⟩
  obtain ⟨_, _, _, ns, made, rfl⟩ := ofRecords_eq_ok_iff.1 read
  exact map_toRecord_of_nodesOfRecords (fun i r found => by rw [numbered i r found, Nat.zero_add]) made

/-! ## What is composed, taken apart and read -/

/-- **What can be made of formulas as wholes**: leaves, compositions, parts that are joined or
taken out, and texts that are read. The connectives, operators, unknown facts and one-ofs are
compositions. Nothing is added to a node of a formula that is there already. -/
inductive Composed : Formula → Prop
  | empty : Composed .empty
  | leaf (kind : NodeKind) : Composed (leaf kind)
  | compose (kind : NodeKind) {parts : List Formula} :
    (∀ p ∈ parts, Composed p) → Composed (compose kind parts)
  | fromSubtrees {tag : NodeTag} {parts : List Formula} {f : Formula} :
    (∀ p ∈ parts, Composed p) → fromSubtrees tag parts = some f → Composed f
  | extract {f : Formula} (id : Nat) : Composed f → Composed (f.extract id)
  | topLevel {f p : Formula} : Composed f → p ∈ f.topLevel → Composed p
  | parse {s : String} {f : Formula} : parse s = .ok f → Composed f

/-- A part at the top is the whole formula or what stands below a child of the root. -/
theorem topLevel_cases {f p : Formula} (part : p ∈ f.topLevel) : p = f ∨ ∃ id, p = f.extract id := by
  unfold topLevel at part
  split at part
  · cases part
  · split at part
    · obtain ⟨id, _, rfl⟩ := List.mem_map.1 part
      exact .inr ⟨id, rfl⟩
    · obtain ⟨id, _, rfl⟩ := List.mem_map.1 part
      exact .inr ⟨id, rfl⟩
    · exact .inl (List.mem_singleton.1 part)

/-- **What is composed is numbered in pre-order**: it is the formula of a term, or empty. -/
theorem exists_ofTerm?_of_composed {f : Formula} (composed : Composed f) : ∃ o, f = ofTerm? o := by
  induction composed with
  | empty => exact ⟨none, rfl⟩
  | leaf kind => exact ⟨some _, rfl⟩
  | compose kind _ _ => exact ⟨some _, rfl⟩
  | fromSubtrees _ joined each =>
    rcases fromSubtrees_cases joined with ⟨kind, ps, rfl⟩ | mem
    · exact ⟨some _, rfl⟩
    · exact each _ mem
  | extract id _ _ => exact ⟨_, rfl⟩
  | topLevel _ part whole =>
    rcases topLevel_cases part with rfl | ⟨id, rfl⟩
    · exact whole
    · exact ⟨_, rfl⟩
  | parse read =>
    unfold Formula.parse at read
    obtain ⟨sx, _, read⟩ := bind_eq_ok_iff.1 read
    obtain ⟨t, _, made⟩ := bind_eq_ok_iff.1 read
    exact ⟨some t, (Except.ok.inj made).symm⟩

/-! ## There and back -/

/-- **Formulas as records and back.** The records of a forest are read, as the forest that they
are of, if and only if its root reaches every node and every atom in it has a name; else they are
refused for a fault that the forest has. What is composed, taken apart or read from text is a
forest that its root reaches. And what has been read from records is written as these records,
cleared of what their tags do not use. -/
theorem ofRecords_toRecords :
    (∀ f : Formula, f.Forest →
      (ofRecords f.toRecords = .ok f ↔ f.Exchangeable) ∧
        (¬ f.Exchangeable → ∃ e, ofRecords f.toRecords = .error e ∧ f.Faulty e)) ∧
      (∀ f : Formula, Composed f →
        f.Forest ∧ ∀ id < f.size, ReflTransGen f.Child 0 id) ∧
      ∀ (rs : List Record) (f : Formula), ofRecords rs = .ok f →
        f.toRecords = rs.map Record.cleared := by
  refine ⟨fun f forest => ⟨⟨exchangeable_of_ofRecords, fun fit => ?_⟩, fun unfit => ?_⟩,
    fun f composed => ?_, fun rs f => toRecords_of_ofRecords⟩
  · exact fit.ofRecords_eq_ok forest
  · cases read : ofRecords f.toRecords with
    | ok g => exact absurd (exchangeable_of_ofRecords read) unfit
    | error e => exact ⟨e, rfl, faulty_of_ofRecords forest read⟩
  · obtain ⟨o, rfl⟩ := exists_ofTerm?_of_composed composed
    exact ⟨forest_ofTerm? o, reached_ofTerm? o⟩

/-- A negation is handed over, and with it an operator that no record of it has a use for. With a
node that the root does not reach it is refused. -/
theorem ofRecords_toRecords_stray :
    let f := neg (.ofLiteral (.positive "p" ["a"]))
    let rs := f.toRecords.map fun r => { r with operator := some .less }
    let g := (f.push (.number 1)).1
    ofRecords f.toRecords = .ok f ∧ ofRecords rs = .ok f ∧ f.toRecords = rs.map Record.cleared ∧
      g.Forest ∧ ∃ e, ofRecords g.toRecords = .error e ∧ g.Faulty e := by
  intro f rs g
  obtain ⟨exchange, built, again⟩ := ofRecords_toRecords
  have composed : Composed f := .compose .not (by simp [ofLiteral, Composed.leaf])
  obtain ⟨forest, reached⟩ := built f composed
  have read : ofRecords rs = .ok f := rfl
  have grown : g.Forest := forest.push (.number 1)
  -- no node lists the new one
  have stray : ¬ g.Exchangeable := by
    intro fit
    rcases ReflTransGen.cases_tail (fit.reached 2 (by decide)) with same | ⟨a, _, edge⟩
    · cases same
    · have listed := mem_childList.2 ⟨a, edge⟩
      revert listed
      decide
  refine ⟨(exchange f forest).1.2 ⟨reached, by decide⟩, read, again rs f read, grown, ?_⟩
  exact (exchange g grown).2 stray

end Formula

end WorldModel
