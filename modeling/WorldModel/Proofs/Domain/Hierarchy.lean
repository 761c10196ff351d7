/-
The way up in a hierarchy of types.

Whoever asks for subtypes goes up from each type until there is no parent. That this ends is
not in the walk but in the check for cycles, which takes as many steps as there are types: if
the way up were longer, it would pass a type twice (`Closed.endsWithin_length`). The walk
itself, with no bound on its steps, is `Climb`. The list of ancestors that a domain works with
is all of it (`climb_ancestorsWithin`), and what is on it is what is above (`Climb.mem_iff`), so
that the subtypes of a type are all from which steps from parent to parent lead there
(`Closed.mem_subtypes_iff`).
-/
import Mathlib.Data.List.Perm.Subperm
import Mathlib.Logic.Relation
import WorldModel.Domain.Basic

set_option autoImplicit false

namespace WorldModel

open Relation (TransGen)

/-! ## The way up -/

namespace Hierarchy

/-- One step up. -/
def Up (h : Hierarchy) (t p : String) : Prop :=
  h.parent? t = some p

/-- **The way up** from a type, until there is no parent: a walk of any length, but one
that ends. -/
inductive Climb (h : Hierarchy) : String → List String → Prop
  | top {t : String} (parentless : h.parent? t = none) : Climb h t []
  | up {t p : String} {ancestors : List String} (step : h.Up t p) (rest : Climb h p ancestors) :
      Climb h t (p :: ancestors)

variable {h : Hierarchy} {t p u : String}

theorem Up.mem_keys (step : h.Up t p) : t ∈ Table.keys h :=
  Table.mem_keys_iff.2 ⟨some p, Option.join_eq_some_iff.1 step⟩

/-- Above a type are its parent and what is above that. -/
theorem transGen_up_iff (step : h.Up t p) : TransGen h.Up t u ↔ u = p ∨ TransGen h.Up p u := by
  rw [← Relation.reflTransGen_iff_eq_or_transGen, Relation.TransGen.head'_iff]
  constructor
  · rintro ⟨q, other, rest⟩
    obtain rfl := Option.some.inj (other.symm.trans step)
    exact rest
  · exact fun rest => ⟨p, step, rest⟩

theorem not_transGen_up (parentless : h.parent? t = none) : ¬ TransGen h.Up t u := by
  rw [Relation.TransGen.head'_iff]
  rintro ⟨q, step, _⟩
  cases parentless.symm.trans step

/-- What is passed on the way up is all that is above. -/
theorem Climb.mem_iff {ancestors : List String} (climb : h.Climb t ancestors) :
    u ∈ ancestors ↔ TransGen h.Up t u := by
  induction climb with
  | top parentless => simp [not_transGen_up parentless]
  | up step _ ih => rw [List.mem_cons, ih, transGen_up_iff step]

/-- A way up that ends within some steps is listed whole by as many or more. -/
theorem climb_ancestorsWithin {n m : Nat} (ends : h.endsWithin n t = true) (le : n ≤ m) :
    h.Climb t (h.ancestorsWithin m t) := by
  induction n generalizing m t with
  | zero => cases ends
  | succ n ih =>
    obtain _ | m := m
    · cases le
    rw [endsWithin] at ends
    rw [ancestorsWithin]
    cases step : h.parent? t with
    | none => exact .top step
    | some p =>
      rw [step] at ends
      exact .up step (ih ends (Nat.le_of_succ_le_succ le))

theorem transGen_of_mem_ancestorsWithin {n : Nat} (mem : u ∈ h.ancestorsWithin n t) :
    TransGen h.Up t u := by
  induction n generalizing t with
  | zero => cases mem
  | succ n ih =>
    rw [ancestorsWithin] at mem
    cases step : h.parent? t with
    | none =>
      rw [step] at mem
      cases mem
    | some p =>
      rw [step] at mem
      rw [transGen_up_iff step]
      exact (List.mem_cons.1 mem).imp_right ih

/-- On the way up each type is above all that were passed before. -/
theorem pairwise_ancestorsWithin (h : Hierarchy) (n : Nat) (t : String) :
    (t :: h.ancestorsWithin n t).Pairwise (TransGen h.Up) := by
  induction n generalizing t with
  | zero => exact List.pairwise_singleton _ _
  | succ n ih =>
    refine List.pairwise_cons.2 ⟨fun u => transGen_of_mem_ancestorsWithin, ?_⟩
    rw [ancestorsWithin]
    cases h.parent? t with
    | none => exact .nil
    | some p => exact ih p

/-- A way up that does not end passes one type with every step. -/
theorem length_ancestorsWithin {n : Nat} (onward : h.endsWithin n t = false) :
    (h.ancestorsWithin n t).length = n := by
  induction n generalizing t with
  | zero => rfl
  | succ n ih =>
    rw [endsWithin] at onward
    rw [ancestorsWithin]
    cases step : h.parent? t with
    | none =>
      rw [step] at onward
      cases onward
    | some p =>
      rw [step] at onward
      rw [List.length_cons, ih onward]

/-- On a cycle the way up does not end. -/
theorem endsWithin_of_cycle (cycle : TransGen h.Up t t) (n : Nat) : h.endsWithin n t = false := by
  induction n generalizing t with
  | zero => rfl
  | succ n ih =>
    rw [endsWithin]
    cases step : h.parent? t with
    | none => exact absurd cycle (not_transGen_up step)
    | some p =>
      -- the parent is on the cycle too
      rcases (transGen_up_iff step).1 cycle with rfl | back
      · exact ih cycle
      · exact ih (back.tail step)

/-! ## Rooted hierarchies -/

/-- **A hierarchy in which every parent is a type** and some type is there. -/
structure Closed (h : Hierarchy) : Prop where
  parents : ∀ {t p}, h.Up t p → p ∈ Table.keys h
  nonempty : h ≠ []

theorem Closed.mem_keys (closed : h.Closed) (below : TransGen h.Up t u) : u ∈ Table.keys h := by
  cases below with
  | single step => exact closed.parents step
  | tail _ step => exact closed.parents step

/-- **Without a cycle every way up ends** within as many steps as there are types: a longer one
would pass a type twice. -/
theorem Closed.endsWithin_length (closed : h.Closed) (acyclic : ∀ t, ¬ TransGen h.Up t t)
    (t : String) : h.endsWithin h.length t = true := by
  by_contra never
  rw [Bool.not_eq_true] at never
  have length := length_ancestorsWithin never
  have passed : ∀ u ∈ h.ancestorsWithin h.length t, u ∈ Table.keys h :=
    fun u mem => closed.mem_keys (transGen_of_mem_ancestorsWithin mem)
  have start : t ∈ Table.keys h := by
    cases step : h.parent? t with
    | some p => exact Up.mem_keys step
    | none =>
      -- a way up without any step has ended
      obtain ⟨n, some_⟩ := Nat.exists_eq_succ_of_ne_zero
        fun zero => closed.nonempty (List.length_eq_zero_iff.1 zero)
      rw [some_, endsWithin, step] at never
      cases never
  have nodup : (t :: h.ancestorsWithin h.length t).Nodup := by
    refine (pairwise_ancestorsWithin h _ t).imp fun {a b} above same => ?_
    exact acyclic b (same ▸ above)
  have bound := (nodup.subperm (List.forall_mem_cons.2 ⟨start, passed⟩)).length_le
  rw [List.length_cons, length, Table.keys, List.length_map] at bound
  exact Nat.not_succ_le_self _ bound

/-- The check for cycles finds one if and only if there is one. -/
theorem Closed.forall_endsWithin_iff (closed : h.Closed) :
    (∀ t ∈ Table.keys h, h.endsWithin h.length t = true) ↔ ∀ t, ¬ TransGen h.Up t t := by
  refine ⟨fun ends t cycle => ?_, fun acyclic t _ => closed.endsWithin_length acyclic t⟩
  have onward := ends t (closed.mem_keys cycle)
  rw [endsWithin_of_cycle cycle] at onward
  cases onward

/-- **The subtypes of a type** are the types that it is above. -/
theorem Closed.mem_subtypes_iff (closed : h.Closed) (acyclic : ∀ t, ¬ TransGen h.Up t t) :
    u ∈ h.subtypes t ↔ TransGen h.Up u t := by
  have climb := climb_ancestorsWithin (closed.endsWithin_length acyclic u) (Nat.le_refl _)
  rw [subtypes, List.mem_filter, Bool.and_eq_true, List.contains_iff_mem, ancestors, climb.mem_iff]
  constructor
  · exact fun both => both.2.2
  · intro below
    have differ : u ≠ t := fun same => acyclic t (same ▸ below)
    obtain ⟨p, step, _⟩ := Relation.TransGen.head'_iff.1 below
    exact ⟨step.mem_keys, by simpa using differ, below⟩

/-- They are listed in the order of their names, each once. -/
theorem pairwise_subtypes (increasing : Table.Increasing h) (t : String) :
    (h.subtypes t).Pairwise (· < ·) :=
  List.Pairwise.sublist List.filter_sublist increasing

end Hierarchy

end WorldModel
