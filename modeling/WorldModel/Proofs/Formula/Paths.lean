/-
Records that number a tree.

`NumbersTree` says it without a word about parents, searches or counts: every record carries
its position, children are positions, and exactly one path leads from the root to each
position. **Main statement.** `ofRecords_accepts_trees`: the records that can be read are these,
if they carry what their tags need as well. The empty list is one of them.

A path says at which place of its list the next child stands, so that a record that lists a
child twice has two paths to it. The last step of a path is the place where its end is
listed, and two paths to one end are compared from there backwards (`follow?_inj`). So one path
for each position means one place for each child, which is what the reading counts.

On what has been read the way down ends: it is well founded (`wellFounded_child`), and unfolding
comes to its end below every node.
-/
import Mathlib.Order.WellFounded
import WorldModel.Proofs.Formula.Records

set_option autoImplicit false

namespace WorldModel

open Relation (ReflTransGen TransGen)

/-! ## Paths -/

/-- The child that a record lists at a place, if there is such a record and such a place. -/
def childAt? (rs : List Record) (id place : Nat) : Option Nat :=
  rs[id]?.bind (·.children[place]?)

/-- **The record at the end of a path** from the root. -/
def follow? (rs : List Record) (path : List Nat) : Option Nat :=
  path.foldlM (childAt? rs) 0

/-- **The records number a tree**: each carries its position, children are positions, and to
each position exactly one path leads from the root. -/
structure NumbersTree (rs : List Record) : Prop where
  numbered : ∀ i, ∀ r : Record, rs[i]? = some r → r.id = i
  inside : ∀ r ∈ rs, ∀ c ∈ r.children, c < rs.length
  path : ∀ id < rs.length, ∃! path, follow? rs path = some id

section Paths

variable {rs : List Record}

theorem childAt?_eq_some_iff {a p c : Nat} :
    childAt? rs a p = some c ↔ ∃ r, rs[a]? = some r ∧ r.children[p]? = some c :=
  Option.bind_eq_some_iff

theorem recordChild_iff {a c : Nat} : RecordChild rs a c ↔ ∃ p, childAt? rs a p = some c := by
  constructor
  · rintro ⟨r, found, mem⟩
    obtain ⟨p, listed⟩ := List.mem_iff_getElem?.1 mem
    exact ⟨p, childAt?_eq_some_iff.2 ⟨r, found, listed⟩⟩
  · rintro ⟨p, listed⟩
    obtain ⟨r, found, listed⟩ := childAt?_eq_some_iff.1 listed
    exact ⟨r, found, List.mem_of_getElem? listed⟩

/-- One step more. -/
theorem follow?_concat (path : List Nat) (p : Nat) :
    follow? rs (path ++ [p]) = (follow? rs path).bind (childAt? rs · p) := by
  rw [follow?, List.foldlM_append, follow?]
  cases path.foldlM (childAt? rs) 0 with
  | none => rfl
  | some a => simp

/-- A path leads to what the root reaches. -/
theorem exists_follow?_iff {id : Nat} :
    (∃ path, follow? rs path = some id) ↔ ReflTransGen (RecordChild rs) 0 id := by
  constructor
  · rintro ⟨path, leads⟩
    induction path using List.reverseRecOn generalizing id with
    | nil =>
      obtain rfl := Option.some.inj leads
      exact .refl
    | append_singleton path p ih =>
      rw [follow?_concat] at leads
      obtain ⟨a, leads, listed⟩ := Option.bind_eq_some_iff.1 leads
      exact (ih leads).tail (recordChild_iff.2 ⟨p, listed⟩)
  · intro reached
    induction reached with
    | refl => exact ⟨[], rfl⟩
    | tail _ step ih =>
      obtain ⟨path, leads⟩ := ih
      obtain ⟨p, listed⟩ := recordChild_iff.1 step
      exact ⟨path ++ [p], by rw [follow?_concat, leads, Option.bind_some, listed]⟩

/-- **Every child is listed once** when two places that list the same child are one place. -/
theorem nodup_flatMap_children_iff : (rs.flatMap Record.children).Nodup ↔
    ∀ a p b q c, childAt? rs a p = some c → childAt? rs b q = some c → a = b ∧ p = q := by
  constructor
  · intro distinct a p b q c first second
    obtain ⟨r, here, listed⟩ := childAt?_eq_some_iff.1 first
    obtain ⟨s, there, listed'⟩ := childAt?_eq_some_iff.1 second
    obtain rfl := eq_of_nodup_flatMap distinct here there (List.mem_of_getElem? listed)
      (List.mem_of_getElem? listed')
    obtain rfl := Option.some.inj (here.symm.trans there)
    have each := (List.nodup_flatMap.1 distinct).1 r (List.mem_of_getElem? here)
    obtain ⟨k, eq⟩ := List.getElem?_eq_some_iff.1 listed
    obtain ⟨l, eq'⟩ := List.getElem?_eq_some_iff.1 listed'
    exact ⟨rfl, each.getElem_inj_iff.1 (eq.trans eq'.symm)⟩
  · intro once
    have listed : ∀ a (i : a < rs.length) p (k : p < rs[a].children.length),
        childAt? rs a p = some rs[a].children[p] := by
      intro a i p k
      exact childAt?_eq_some_iff.2 ⟨rs[a], List.getElem?_eq_getElem i, List.getElem?_eq_getElem k⟩
    rw [List.nodup_flatMap]
    constructor
    · intro r mem
      obtain ⟨a, i, rfl⟩ := List.mem_iff_getElem.1 mem
      rw [List.nodup_iff_injective_getElem]
      intro p q same
      have second := (listed a i q q.2).trans (congrArg some same.symm)
      exact Fin.ext (once a p a q _ (listed a i p p.2) second).2
    · rw [List.pairwise_iff_getElem]
      intro a b i j less c first second
      obtain ⟨p, k, rfl⟩ := List.mem_iff_getElem.1 first
      obtain ⟨q, l, same⟩ := List.mem_iff_getElem.1 second
      have there := listed b j q l
      rw [same] at there
      have := (once a p b q _ (listed a i p k) there).1
      omega

/-- **Only one path leads** to a record, where every child is listed once and the root is
nobody's child. -/
theorem follow?_inj (distinct : (rs.flatMap Record.children).Nodup)
    (top : 0 ∉ rs.flatMap Record.children) {path other : List Nat} {id : Nat}
    (first : follow? rs path = some id) (second : follow? rs other = some id) : path = other := by
  have orphan : ∀ a p, childAt? rs a p ≠ some 0 :=
    fun a p listed => top (mem_flatMap_children.2 ⟨a, recordChild_iff.2 ⟨p, listed⟩⟩)
  -- the last steps of both agree, because the record is listed at one place only
  induction path using List.reverseRecOn generalizing other id with
  | nil =>
    obtain rfl := Option.some.inj first
    rcases List.eq_nil_or_concat other with rfl | ⟨other, q, rfl⟩
    · rfl
    · rw [List.concat_eq_append, follow?_concat] at second
      obtain ⟨b, _, listed⟩ := Option.bind_eq_some_iff.1 second
      exact absurd listed (orphan b q)
  | append_singleton path p ih =>
    rw [follow?_concat] at first
    obtain ⟨a, leads, listed⟩ := Option.bind_eq_some_iff.1 first
    rcases List.eq_nil_or_concat other with rfl | ⟨other, q, rfl⟩
    · obtain rfl := Option.some.inj second
      exact absurd listed (orphan a p)
    · rw [List.concat_eq_append, follow?_concat] at second
      obtain ⟨b, leads', listed'⟩ := Option.bind_eq_some_iff.1 second
      obtain ⟨rfl, rfl⟩ := nodup_flatMap_children_iff.1 distinct a p b q id listed listed'
      rw [ih leads leads', List.concat_eq_append]

/-- **Of a tree no child is listed twice**, and the root is not listed at all: two places of
one child are the last steps of two paths to it. -/
theorem NumbersTree.nodup (tree : NumbersTree rs) :
    (rs.flatMap Record.children).Nodup ∧ 0 ∉ rs.flatMap Record.children := by
  have step : ∀ a p c, childAt? rs a p = some c →
      c < rs.length ∧ ∃ path, follow? rs path = some a ∧ follow? rs (path ++ [p]) = some c := by
    intro a p c listed
    obtain ⟨r, found, child⟩ := childAt?_eq_some_iff.1 listed
    obtain ⟨path, leads⟩ := (tree.path a (List.getElem?_eq_some_iff.1 found).1).exists
    refine ⟨tree.inside r (List.mem_of_getElem? found) c (List.mem_of_getElem? child), path, leads, ?_⟩
    rw [follow?_concat, leads, Option.bind_some, listed]
  constructor
  · refine nodup_flatMap_children_iff.2 fun a p b q c first second => ?_
    obtain ⟨within, path, leads, further⟩ := step a p c first
    obtain ⟨_, other, leads', further'⟩ := step b q c second
    -- the two paths are one, and so are their last steps
    obtain ⟨rfl, same⟩ := List.append_inj' ((tree.path c within).unique further further') rfl
    exact ⟨Option.some.inj (leads.symm.trans leads'), List.singleton_inj.1 same⟩
  · intro mem
    obtain ⟨a, edge⟩ := mem_flatMap_children.1 mem
    obtain ⟨p, listed⟩ := recordChild_iff.1 edge
    obtain ⟨within, path, _, further⟩ := step a p 0 listed
    -- to the root leads the empty path
    have same : path ++ [p] = [] := (tree.path 0 within).unique further rfl
    exact List.append_ne_nil_of_right_ne_nil path (List.cons_ne_nil p []) same

/-- **What the reading counts** is that the records number a tree. -/
theorem numbersTree_iff : NumbersTree rs ↔
    ((∀ i, ∀ r : Record, rs[i]? = some r → r.id = i) ∧
      ∀ r ∈ rs, ∀ c ∈ r.children, c < rs.length) ∧
      ((rs.flatMap Record.children).Nodup ∧ 0 ∉ rs.flatMap Record.children) ∧
      ∀ id < rs.length, ReflTransGen (RecordChild rs) 0 id := by
  constructor
  · intro tree
    exact ⟨⟨tree.numbered, tree.inside⟩, tree.nodup,
      fun id here => exists_follow?_iff.1 (tree.path id here).exists⟩
  · rintro ⟨⟨numbered, inside⟩, ⟨distinct, top⟩, reached⟩
    refine ⟨numbered, inside, fun id here => ?_⟩
    obtain ⟨path, leads⟩ := exists_follow?_iff.2 (reached id here)
    exact ⟨path, leads, fun other leads' => follow?_inj distinct top leads' leads⟩

end Paths

namespace Formula

/-! ## The way down ends -/

/-- **The way down ends** in a formula without cycles that its root reaches: what the nodes
unfold to gets smaller. -/
theorem wellFounded_child {f : Formula} (acyclic : f.Acyclic)
    (inside : ∀ c ∈ f.childList, c < f.size) (reached : ∀ id < f.size, ReflTransGen f.Child 0 id) :
    WellFounded fun c a => f.Child a c := by
  have part : ∀ ts : List Term, ∀ t ∈ ts, t.size ≤ Term.sizeAll ts := by
    intro ts
    induction ts with
    | nil => simp
    | cons u ts ih =>
      rw [Term.sizeAll, List.forall_mem_cons]
      exact ⟨Nat.le_add_right _ _, fun t mem => Nat.le_trans (ih t mem) (Nat.le_add_left _ _)⟩
  -- a node that does not unfold counts as nothing, but there is none on the way
  refine Subrelation.wf ?_ (measure fun id => ((f.unfold id).map Term.size).getD 0).wf
  rintro c a edge
  obtain ⟨t, shown⟩ := exists_unfold_iff.2 (inside c (mem_childList.2 ⟨a, edge⟩))
  have above := reached a (lt_size_of_child edge)
  obtain ⟨n, found, child⟩ := edge
  have smaller := part _ t (List.mem_filterMap.2 ⟨c, child, shown⟩)
  change ((f.unfold c).map Term.size).getD 0 < ((f.unfold a).map Term.size).getD 0
  rw [shown, unfold_of_reached acyclic above found]
  exact Nat.lt_succ_of_le smaller

/-! ## Records of trees -/

/-- **Records are read when they number a tree** and carry what their tags need. What has been
read has no cycle, no node with two parents and none that the root does not reach, so that the
way down ends and every node unfolds completely. No records make the empty formula. -/
theorem ofRecords_accepts_trees (rs : List Record) :
    ((∃ f, ofRecords rs = .ok f) ↔ NumbersTree rs ∧ ∀ r ∈ rs, r.Carries) ∧
      (∀ f, ofRecords rs = .ok f →
        f.Forest ∧ (∀ id < f.size, ReflTransGen f.Child 0 id) ∧
          (WellFounded fun c a => f.Child a c) ∧
          ∀ id < f.size, ∀ depth, f.size ≤ depth →
            ∃ t, f.unfold id = some t ∧ f.unfoldWithin depth id = some t) ∧
      ofRecords [] = .ok .empty := by
  refine ⟨?_, fun f read => ?_, rfl⟩
  · rw [exists_ofRecords_iff, numbersTree_iff]
    simp only [and_assoc]
  · have forest := forest_ofRecords read
    have reached := reached_ofRecords read
    have acyclic : f.Acyclic := fun id _ => forest.acyclic id
    refine ⟨forest, reached, wellFounded_child acyclic forest.inside reached, ?_⟩
    intro id here depth enough
    obtain ⟨t, shown⟩ := exists_unfold_iff.2 here
    exact ⟨t, shown, (unfoldWithin_of_reached acyclic (reached id here) enough).trans shown⟩

end Formula

end WorldModel
