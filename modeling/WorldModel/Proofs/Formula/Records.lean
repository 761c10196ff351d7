/-
What the reading of records accepts.

The checks are local: a record carries its position, its children are positions, no number is
listed twice as a child, and a search from the root has met every number at its end. Here each
of them is given its meaning, in both directions, and with them the reading as a whole
(`exists_ofRecords_iff`). The search has as many rounds as there are records, which is enough
because every round but the last meets something new (`length_unseen_lt`).

Records may list children in front of their parents, so that no order of the numbers rules out
a cycle. But each node has one parent at most, the root has none and reaches every node, and a
cycle that the root reaches would have to be entered at a node with two parents
(`acyclic_of_reachable`). So what has been read is a forest (`forest_ofRecords`), and a tree
below the root (`reached_ofRecords`).
-/
import Mathlib.Data.List.Count
import WorldModel.Formula.Record
import WorldModel.Proofs.Formula.Forest
import WorldModel.Proofs.Results

set_option autoImplicit false

namespace WorldModel

/-! ## Cycles that a root reaches -/

open Relation (ReflTransGen TransGen)

/-- **No cycle is reached** from a node without parents where every node has one parent at
most: the cycle would be entered at a node with two. -/
theorem acyclic_of_reachable {edge : Nat → Nat → Prop} {root : Nat} (orphan : ∀ a, ¬ edge a root)
    (parent : ∀ a b c, edge a c → edge b c → a = b) {id : Nat}
    (reached : ReflTransGen edge root id) : ¬ TransGen edge id id := by
  induction reached with
  | refl =>
    intro cycle
    obtain ⟨a, _, last⟩ := TransGen.tail'_iff.1 cycle
    exact orphan a last
  | tail _ step ih =>
    intro cycle
    -- the cycle comes back through the parent, which is then on it as well
    obtain ⟨a, round, last⟩ := TransGen.tail'_iff.1 cycle
    obtain rfl := parent _ _ _ last step
    exact ih (TransGen.head' step round)

/-! ## Lists that share nothing -/

/-- Lists that have nothing twice, taken together, have a common element only where they are
the same list. -/
theorem eq_of_nodup_flatMap {α β : Type} {l : List α} {f : α → List β} (distinct : (l.flatMap f).Nodup)
    {i j : Nat} {x y : α} {c : β} (first : l[i]? = some x) (second : l[j]? = some y)
    (here : c ∈ f x) (there : c ∈ f y) : i = j := by
  have apart := List.pairwise_iff_getElem.1 (List.nodup_flatMap.1 distinct).2
  obtain ⟨inside, rfl⟩ := List.getElem?_eq_some_iff.1 first
  obtain ⟨inside', rfl⟩ := List.getElem?_eq_some_iff.1 second
  rcases Nat.lt_trichotomy i j with less | same | greater
  · exact absurd there (apart i j inside inside' less here)
  · exact same
  · exact absurd here (apart j i inside' inside greater there)

/-! ## Records -/

/-- The record in place `a` has `b` among its children. -/
def RecordChild (rs : List Record) (a b : Nat) : Prop :=
  ∃ r, rs[a]? = some r ∧ b ∈ r.children

/-- **The record carries what its tag needs**: a name for an atom, an operator for an
expression or an update. -/
structure Record.Carries (r : Record) : Prop where
  name : r.tag = .predicate ∨ r.tag = .function → r.name ≠ ""
  operator : r.tag = .expression → r.operator ≠ none
  update : r.tag = .update → r.update ≠ none

section Records

variable {rs : List Record}

theorem mem_flatMap_children {c : Nat} :
    c ∈ rs.flatMap Record.children ↔ ∃ a, RecordChild rs a c := by
  rw [List.mem_flatMap]
  constructor
  · rintro ⟨r, mem, child⟩
    obtain ⟨a, found⟩ := List.mem_iff_getElem?.1 mem
    exact ⟨a, r, found, child⟩
  · rintro ⟨a, r, found, child⟩
    exact ⟨r, List.mem_of_getElem? found, child⟩

/-- **Numbers and children** of records without a fault are positions, and there is no fault
where they are. -/
theorem numberingFault?_eq_none_iff {count index : Nat} :
    numberingFault? count index rs = none ↔
      (∀ i r, rs[i]? = some r → r.id = index + i) ∧ ∀ r ∈ rs, ∀ c ∈ r.children, c < count := by
  -- the number of the first record goes up from one step to the next, the bound does not
  induction rs generalizing index with
  | nil => simp [numberingFault?]
  | cons r rs ih =>
    have step : numberingFault? count index (r :: rs) = none ↔
        r.id = index ∧ (∀ c ∈ r.children, c < count) ∧
          numberingFault? count (index + 1) rs = none := by
      have bounded : r.children.find? (count ≤ ·) = none ↔ ∀ c ∈ r.children, c < count := by
        simp
      rw [← bounded, numberingFault?]
      by_cases number : r.id = index
      · cases r.children.find? (count ≤ ·) <;> simp [number]
      · simp [number]
    have numbers : (∀ i s, (r :: rs)[i]? = some s → s.id = index + i) ↔
        r.id = index ∧ ∀ i s, rs[i]? = some s → s.id = index + 1 + i := by
      refine ⟨fun all => ⟨all 0 r rfl, fun i s found => ?_⟩, ?_⟩
      · have := all (i + 1) s (by simpa using found)
        omega
      · rintro ⟨first, later⟩ (_ | i) s found
        · obtain rfl := Option.some.inj found
          exact first
        · have := later i s (by simpa using found)
          omega
    rw [step, ih, numbers, List.forall_mem_cons]
    tauto

/-! ## The search -/

/-- The children of the records of `frontier` that are not in `seen`. -/
def fresh (rs : List Record) (seen frontier : List Nat) : List Nat :=
  (frontier.flatMap fun id => (rs.toArray[id]?.map (·.children)).getD []).filter
    fun id => !seen.contains id

/-- One round of the search. -/
theorem reachWithin_succ (steps : Nat) (seen frontier : List Nat) :
    reachWithin rs.toArray (steps + 1) seen frontier =
      if (fresh rs seen frontier).isEmpty then seen
      else reachWithin rs.toArray steps (seen ++ fresh rs seen frontier) (fresh rs seen frontier) :=
  rfl

theorem mem_fresh_iff {seen frontier : List Nat} {c : Nat} :
    c ∈ fresh rs seen frontier ↔ (∃ a ∈ frontier, RecordChild rs a c) ∧ c ∉ seen := by
  have listed : ∀ a, c ∈ (rs.toArray[a]?.map (·.children)).getD [] ↔ RecordChild rs a c := by
    intro a
    rw [List.getElem?_toArray, RecordChild]
    cases rs[a]? <;> simp
  rw [fresh, List.mem_filter, List.mem_flatMap]
  simp only [listed]
  simp

/-- **What is collected is reached**: the search goes from reached records to their
children. -/
theorem reached_of_mem_reachWithin {root steps : Nat} {seen frontier : List Nat}
    (old : ∀ a ∈ seen, ReflTransGen (RecordChild rs) root a)
    (border : ∀ a ∈ frontier, ReflTransGen (RecordChild rs) root a) :
    ∀ a ∈ reachWithin rs.toArray steps seen frontier,
      ReflTransGen (RecordChild rs) root a := by
  induction steps generalizing seen frontier with
  | zero => exact old
  | succ steps ih =>
    have next : ∀ a ∈ fresh rs seen frontier, ReflTransGen (RecordChild rs) root a := by
      intro a mem
      obtain ⟨⟨b, inside, edge⟩, _⟩ := mem_fresh_iff.1 mem
      exact (border b inside).tail edge
    rw [reachWithin_succ]
    split
    · exact old
    · exact ih (List.forall_mem_append.2 ⟨old, next⟩) next

/-- The positions that are not in the list. -/
def unseen (rs : List Record) (seen : List Nat) : List Nat :=
  (List.range rs.length).filter fun id => !seen.contains id

theorem mem_unseen_iff {seen : List Nat} {c : Nat} :
    c ∈ unseen rs seen ↔ c < rs.length ∧ c ∉ seen := by
  rw [unseen, List.mem_filter, List.mem_range]
  simp

section Inside

variable (inside : ∀ a c, RecordChild rs a c → c < rs.length)
include inside

/-- A round that meets something new leaves less to be seen. -/
theorem length_unseen_lt {seen frontier : List Nat} (some_ : fresh rs seen frontier ≠ []) :
    (unseen rs (seen ++ fresh rs seen frontier)).length < (unseen rs seen).length := by
  obtain ⟨c, new⟩ := List.exists_mem_of_ne_nil _ some_
  obtain ⟨⟨a, _, edge⟩, before⟩ := mem_fresh_iff.1 new
  have split : unseen rs (seen ++ fresh rs seen frontier) =
      (unseen rs seen).filter fun id => !(fresh rs seen frontier).contains id := by
    rw [unseen, unseen, List.filter_filter]
    refine List.filter_congr fun id _ => ?_
    simp [Bool.and_comm]
  rw [split, List.length_filter_lt_length_iff_exists]
  exact ⟨c, mem_unseen_iff.2 ⟨inside a c edge, before⟩, by simpa using new⟩

/-- **The search misses nothing**: with as many rounds as there are positions left to be seen
it ends with a list that no child leads out of. -/
theorem closed_reachWithin {steps : Nat} {seen frontier : List Nat}
    (enough : (unseen rs seen).length ≤ steps)
    (border : ∀ a ∈ seen, a ∉ frontier → ∀ c, RecordChild rs a c → c ∈ seen) :
    (∀ a ∈ seen, a ∈ reachWithin rs.toArray steps seen frontier) ∧
      ∀ a ∈ reachWithin rs.toArray steps seen frontier, ∀ c, RecordChild rs a c →
        c ∈ reachWithin rs.toArray steps seen frontier := by
  induction steps generalizing seen frontier with
  | zero =>
    -- nothing is left to be seen
    have none_ := List.eq_nil_of_length_eq_zero (Nat.le_zero.1 enough)
    unfold reachWithin
    refine ⟨fun a mem => mem, fun a _ c edge => ?_⟩
    by_contra left
    have mem := mem_unseen_iff.2 ⟨inside a c edge, left⟩
    rw [none_] at mem
    cases mem
  | succ steps ih =>
    rw [reachWithin_succ]
    split
    · next none_ =>
      refine ⟨fun a mem => mem, fun a mem c edge => ?_⟩
      by_cases new : a ∈ frontier
      · by_contra left
        have found := mem_fresh_iff.2 ⟨⟨a, new, edge⟩, left⟩
        rw [List.isEmpty_iff.1 none_] at found
        cases found
      · exact border a mem new c edge
    · next some_ =>
      have less := length_unseen_lt inside (mt List.isEmpty_iff.2 some_)
      -- only the children of what is new may still be missing
      have border' : ∀ a ∈ seen ++ fresh rs seen frontier, a ∉ fresh rs seen frontier →
          ∀ c, RecordChild rs a c → c ∈ seen ++ fresh rs seen frontier := by
        intro a mem old c edge
        have before := (List.mem_append.1 mem).resolve_right old
        by_cases known : c ∈ seen
        · exact List.mem_append_left _ known
        · by_cases new : a ∈ frontier
          · exact List.mem_append_right _ (mem_fresh_iff.2 ⟨⟨a, new, edge⟩, known⟩)
          · exact absurd (border a before new c edge) known
      obtain ⟨kept, closed⟩ := ih (by omega) border'
      exact ⟨fun a mem => kept a (List.mem_append_left _ mem), closed⟩

/-- **The search finds what the root reaches**, and nothing else. -/
theorem mem_reached_iff (nonempty : rs ≠ []) {id : Nat} :
    id ∈ reached rs ↔ ReflTransGen (RecordChild rs) 0 id := by
  have enough : (unseen rs [0]).length ≤ rs.length := by
    have few := List.length_filter_le (fun id => !([0] : List Nat).contains id) (List.range rs.length)
    rwa [List.length_range] at few
  have border : ∀ a ∈ [0], a ∉ [0] → ∀ c, RecordChild rs a c → c ∈ [0] :=
    fun a mem old => absurd mem old
  -- the search begins with the root, as what has been met and as the border
  obtain ⟨kept, closed⟩ := closed_reachWithin inside enough border
  unfold reached
  rw [if_neg (by simpa using nonempty)]
  constructor
  · have here : ∀ b ∈ [0], ReflTransGen (RecordChild rs) 0 b := by
      intro b single
      rw [List.mem_singleton.1 single]
    exact reached_of_mem_reachWithin here here id
  · intro path
    induction path with
    | refl => exact kept 0 (List.mem_singleton_self 0)
    | tail _ edge ih => exact closed _ ih _ edge

/-- **No node is shared** when no number is listed twice as a child, and the root not at all. -/
theorem forall_isShared_iff : (∀ id < rs.length, isShared rs id = false) ↔
    (rs.flatMap Record.children).Nodup ∧ 0 ∉ rs.flatMap Record.children := by
  have count : ∀ id, parentCount rs id = (rs.flatMap Record.children).count id := fun _ => rfl
  have bound : ∀ c ∈ rs.flatMap Record.children, c < rs.length := by
    intro c mem
    obtain ⟨a, edge⟩ := mem_flatMap_children.1 mem
    exact inside a c edge
  constructor
  · intro single
    have few : ∀ id < rs.length, parentCount rs id ≤ 1 ∧ (id = 0 → parentCount rs id = 0) := by
      intro id here
      have one := single id here
      unfold isShared at one
      simp only [Bool.or_eq_false_iff, decide_eq_false_iff_not, Bool.and_eq_false_imp,
        beq_iff_eq] at one
      exact ⟨by omega, fun root => by have := one.2 root; omega⟩
    refine ⟨List.nodup_iff_count_le_one.2 fun c => ?_, fun mem => ?_⟩
    · -- the check counts positions only, but no other number is a child
      by_cases mem : c ∈ rs.flatMap Record.children
      · exact (few c (bound c mem)).1
      · rw [List.count_eq_zero_of_not_mem mem]
        exact Nat.zero_le 1
    · exact List.count_eq_zero.1 ((few 0 (bound 0 mem)).2 rfl) mem
  · rintro ⟨distinct, top⟩ id _
    have few : parentCount rs id ≤ 1 := List.nodup_iff_count_le_one.1 distinct id
    unfold isShared
    by_cases root : id = 0
    · have none_ : parentCount rs 0 = 0 := List.count_eq_zero.2 top
      simp [root, none_]
    · simp [root, few]

end Inside

/-! ## Contents -/

theorem Record.carries_iff {r : Record} : r.Carries ↔ ∃ k, r.kind = .ok k := by
  obtain ⟨tag, id, children, name, args, negated, value, operator, update⟩ := r
  constructor
  · rintro ⟨named, operated, updated⟩
    cases tag with
    | predicate => exact ⟨_, if_neg (named (.inl rfl))⟩
    | function => exact ⟨_, if_neg (named (.inr rfl))⟩
    | expression =>
      obtain ⟨op, rfl⟩ := Option.ne_none_iff_exists'.1 (operated rfl)
      exact ⟨_, rfl⟩
    | update =>
      obtain ⟨op, rfl⟩ := Option.ne_none_iff_exists'.1 (updated rfl)
      exact ⟨_, rfl⟩
    | _ => exact ⟨_, rfl⟩
  · rintro ⟨k, made⟩
    refine ⟨?_, ?_, ?_⟩
    · rintro (rfl | rfl) rfl <;> simp [Record.kind] at made
    · rintro rfl rfl
      simp [Record.kind] at made
    · rintro rfl rfl
      simp [Record.kind] at made

/-- **Nodes are made** of records that carry what their tags need. -/
theorem exists_nodesOfRecords_iff {index : Nat} :
    (∃ ns, nodesOfRecords index rs = .ok ns) ↔ ∀ r ∈ rs, r.Carries := by
  have node : ∀ index (r : Record), (∃ n, r.node index = .ok n) ↔ r.Carries := by
    intro index r
    rw [Record.carries_iff, Record.node]
    cases r.kind <;> simp
  induction rs generalizing index with
  | nil => exact ⟨fun _ => by simp, fun _ => ⟨[], rfl⟩⟩
  | cons r rs ih =>
    rw [List.forall_mem_cons]
    refine Iff.trans ?_ (and_congr (node index r) (@ih (index + 1)))
    constructor
    · rintro ⟨ns, made⟩
      unfold nodesOfRecords at made
      obtain ⟨n, first, made⟩ := bind_eq_ok_iff.1 made
      obtain ⟨ms, later, _⟩ := bind_eq_ok_iff.1 made
      exact ⟨⟨n, first⟩, ⟨ms, later⟩⟩
    · rintro ⟨⟨n, first⟩, ms, later⟩
      exact ⟨n :: ms, bind_eq_ok_iff.2 ⟨n, first, bind_eq_ok_iff.2 ⟨ms, later, rfl⟩⟩⟩

/-- The nodes of records carry their positions and the children of the records. -/
theorem nodes_of_nodesOfRecords {index : Nat} {ns : List Node}
    (made : nodesOfRecords index rs = .ok ns) :
    ns.map Node.children = rs.map Record.children ∧ ∀ i n, ns[i]? = some n → n.id = index + i := by
  induction rs generalizing index ns with
  | nil =>
    obtain rfl := Except.ok.inj made
    exact ⟨rfl, by simp⟩
  | cons r rs ih =>
    unfold nodesOfRecords at made
    obtain ⟨n, first, made⟩ := bind_eq_ok_iff.1 made
    obtain ⟨ms, later, made⟩ := bind_eq_ok_iff.1 made
    obtain rfl := Except.ok.inj made
    obtain ⟨children, numbers⟩ := ih later
    have node : n.id = index ∧ n.children = r.children := by
      unfold Record.node at first
      split at first
      · obtain rfl := Except.ok.inj first
        exact ⟨rfl, rfl⟩
      · cases first
    refine ⟨by rw [List.map_cons, List.map_cons, children, node.2], ?_⟩
    intro i m found
    cases i with
    | zero =>
      obtain rfl := Option.some.inj found
      exact node.1
    | succ i =>
      have := numbers i m found
      omega

/-! ## The reading as a whole -/

/-- **What the checks leave**, and what is made of it. -/
theorem ofRecords_eq_ok_iff {f : Formula} : Formula.ofRecords rs = .ok f ↔
    numberingFault? rs.length 0 rs = none ∧ (∀ id < rs.length, isShared rs id = false) ∧
      (∀ id < rs.length, id ∈ reached rs) ∧ ∃ ns, nodesOfRecords 0 rs = .ok ns ∧ f = ⟨ns.toArray⟩ := by
  unfold Formula.ofRecords
  -- check by check: a fault that is found denies the condition that the check stands for
  cases numbers : numberingFault? rs.length 0 rs with
  | some fault =>
    refine ⟨fun read => (nomatch read), fun all => ?_⟩
    cases all.1
  | none =>
    cases shared : (List.range rs.length).find? (isShared rs) with
    | some id =>
      have mem := List.mem_range.1 (List.mem_of_find?_eq_some shared)
      refine ⟨fun read => (nomatch read), fun all => ?_⟩
      have double := List.find?_some shared
      rw [all.2.1 id mem] at double
      cases double
    | none =>
      have single : ∀ id < rs.length, isShared rs id = false := by
        intro id within
        simpa using List.find?_eq_none.1 shared id (List.mem_range.2 within)
      cases lost : (List.range rs.length).find? (fun id => !(reached rs).contains id) with
      | some id =>
        have mem := List.mem_range.1 (List.mem_of_find?_eq_some lost)
        simp only [lost]
        refine ⟨fun read => (nomatch read), fun all => ?_⟩
        have missing := List.find?_some lost
        simp [all.2.2.1 id mem] at missing
      | none =>
        have found : ∀ id < rs.length, id ∈ reached rs := by
          intro id within
          simpa using List.find?_eq_none.1 lost id (List.mem_range.2 within)
        simp only [lost]
        constructor
        · intro read
          obtain ⟨ns, made, same⟩ := bind_eq_ok_iff.1 read
          exact ⟨trivial, single, found, ns, made, (Except.ok.inj same).symm⟩
        · rintro ⟨_, _, _, ns, made, rfl⟩
          exact bind_eq_ok_iff.2 ⟨ns, made, rfl⟩

/-- **Records are read** when they carry their positions and what their tags need, children are
positions, none is listed twice, the root not at all, and the root reaches every position. -/
theorem exists_ofRecords_iff : (∃ f, Formula.ofRecords rs = .ok f) ↔
    ((∀ i, ∀ r : Record, rs[i]? = some r → r.id = i) ∧
      ∀ r ∈ rs, ∀ c ∈ r.children, c < rs.length) ∧
      ((rs.flatMap Record.children).Nodup ∧ 0 ∉ rs.flatMap Record.children) ∧
      (∀ id < rs.length, ReflTransGen (RecordChild rs) 0 id) ∧ ∀ r ∈ rs, r.Carries := by
  have numbers : numberingFault? rs.length 0 rs = none ↔
      (∀ i, ∀ r : Record, rs[i]? = some r → r.id = i) ∧
        ∀ r ∈ rs, ∀ c ∈ r.children, c < rs.length := by
    rw [numberingFault?_eq_none_iff]
    simp only [Nat.zero_add]
  have checks : (∃ f, Formula.ofRecords rs = .ok f) ↔ numberingFault? rs.length 0 rs = none ∧
      (∀ id < rs.length, isShared rs id = false) ∧ (∀ id < rs.length, id ∈ reached rs) ∧
        ∃ ns, nodesOfRecords 0 rs = .ok ns := by
    simp only [ofRecords_eq_ok_iff]
    constructor
    · rintro ⟨_, first, second, third, ns, made, _⟩
      exact ⟨first, second, third, ns, made⟩
    · rintro ⟨first, second, third, ns, made⟩
      exact ⟨_, first, second, third, ns, made, rfl⟩
  rw [checks, numbers]
  refine and_congr_right fun sound => ?_
  have inside : ∀ a c, RecordChild rs a c → c < rs.length := by
    rintro a c ⟨r, found, mem⟩
    exact sound.2 r (List.mem_of_getElem? found) c mem
  have found : (∀ id < rs.length, id ∈ reached rs) ↔
      ∀ id < rs.length, ReflTransGen (RecordChild rs) 0 id := by
    refine forall₂_congr fun id here => mem_reached_iff inside ?_
    rintro rfl
    cases here
  rw [forall_isShared_iff inside, found, exists_nodesOfRecords_iff]

end Records

namespace Formula

/-- Of two nodes with a common child in a list of children without repetition one is the
other. -/
theorem parent_unique {f : Formula} (distinct : f.childList.Nodup) {a b c : Nat}
    (first : f.Child a c) (second : f.Child b c) : a = b := by
  obtain ⟨n, here, mem⟩ := first
  obtain ⟨m, there, other⟩ := second
  exact eq_of_nodup_flatMap distinct (Array.getElem?_toList.trans here)
    (Array.getElem?_toList.trans there) mem other

/-- **A formula that its root reaches** has no cycle, if the root is nobody's child and no node
is listed twice. -/
theorem not_cycle_of_reached {f : Formula} (distinct : f.childList.Nodup) (top : 0 ∉ f.childList)
    (reached : ∀ id < f.size, ReflTransGen f.Child 0 id) (id : Nat) :
    ¬ TransGen f.Child id id := by
  intro cycle
  -- what is on a cycle has a child, so it is a node, and the root reaches it
  obtain ⟨b, first, _⟩ := TransGen.head'_iff.1 cycle
  have path := reached id (lt_size_of_child first)
  have orphan : ∀ a, ¬ f.Child a 0 := fun a edge => top (mem_childList.2 ⟨a, edge⟩)
  exact acyclic_of_reachable orphan (fun _ _ _ => parent_unique distinct) path cycle

section Read

variable {rs : List Record} {ns : List Node} (children : ns.map Node.children = rs.map Record.children)

include children

theorem size_of_children : (Formula.mk ns.toArray).size = rs.length := by
  simpa [Formula.size] using congrArg List.length children

theorem childList_of_children : (Formula.mk ns.toArray).childList = rs.flatMap Record.children := by
  unfold childList
  rw [List.flatMap_def, List.flatMap_def, List.toList_toArray, children]

theorem child_of_recordChild {a b : Nat} (edge : RecordChild rs a b) :
    (Formula.mk ns.toArray).Child a b := by
  obtain ⟨r, found, mem⟩ := edge
  have same := congrArg (fun cs => cs[a]?) children
  simp only [List.getElem?_map, found, Option.map_some] at same
  obtain ⟨n, here, eq⟩ := Option.map_eq_some_iff.1 same
  exact ⟨n, by simpa [node?] using here, eq ▸ mem⟩

end Read

variable {rs : List Record} {f : Formula} (read : ofRecords rs = .ok f)
include read

/-- **The root reaches every node** that has been read from records. -/
theorem reached_ofRecords : ∀ id < f.size, ReflTransGen f.Child 0 id := by
  obtain ⟨_, _, reached, _⟩ := exists_ofRecords_iff.1 ⟨f, read⟩
  obtain ⟨_, _, _, ns, made, rfl⟩ := ofRecords_eq_ok_iff.1 read
  obtain ⟨children, _⟩ := nodes_of_nodesOfRecords made
  intro id here
  rw [size_of_children children] at here
  exact ReflTransGen.mono (fun _ _ => child_of_recordChild children) 0 id (reached id here)

/-- **Records that can be read** make a forest. -/
theorem forest_ofRecords : f.Forest := by
  have reached := reached_ofRecords read
  obtain ⟨⟨_, within⟩, ⟨distinct, top⟩, _⟩ := exists_ofRecords_iff.1 ⟨f, read⟩
  obtain ⟨_, _, _, ns, made, rfl⟩ := ofRecords_eq_ok_iff.1 read
  obtain ⟨children, numbers⟩ := nodes_of_nodesOfRecords made
  rw [← childList_of_children children] at distinct top
  refine ⟨?_, ?_, distinct, top, not_cycle_of_reached distinct top reached⟩
  · intro i n found
    have := numbers i n (by simpa [node?] using found)
    omega
  · intro c mem
    rw [childList_of_children children] at mem
    obtain ⟨r, listed, child⟩ := List.mem_flatMap.1 mem
    rw [size_of_children children]
    exact within r listed c child

end Formula

end WorldModel
