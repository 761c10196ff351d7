/-
Equality of numbers.

The two zeros are equal, and what is not a number equals nothing, not even itself. **Main
statement.** `beq_iff`: otherwise numbers are equal when they are the same. So equality is
symmetric and transitive, and it is reflexive on the numbers (`beq_comm`, `beq_trans`,
`beq_self_iff`).
-/
import WorldModel.Formula.Node

set_option autoImplicit false

namespace WorldModel.Number

open Float.Model (UnpackedFloat)

/-- The number with one zero for both. -/
def oneZero : UnpackedFloat → UnpackedFloat
  | .zero _ => .zero .positive
  | u => u

theorem isNaN_eq_false_iff {u : UnpackedFloat} : u.isNaN = false ↔ u ≠ .notANumber := by
  cases u with
  | notANumber => exact iff_of_false nofun fun other => other rfl
  | infinity _ | zero _ | finite _ _ _ _ => exact iff_of_true rfl nofun

/-- Comparison finds two numbers equal when they are the same but for the sign of zero. -/
theorem compare_eq_iff {a b : UnpackedFloat} :
    a.compare b = some .eq ↔ a ≠ .notANumber ∧ oneZero a = oneZero b := by
  -- two of different classes have an order, or none
  have apart : ∀ {p q : Prop}, ¬ p → ¬ q → (p ↔ a ≠ .notANumber ∧ q) :=
    fun not_p not_q => iff_of_false not_p fun both => not_q both.2
  cases a with
  | notANumber => exact iff_of_false nofun fun both => both.1 rfl
  | infinity s =>
    cases b with
    | infinity t =>
      cases s <;> cases t
      · exact iff_of_true rfl ⟨nofun, rfl⟩
      · exact apart nofun nofun
      · exact apart nofun nofun
      · exact iff_of_true rfl ⟨nofun, rfl⟩
    | notANumber | zero _ | finite _ _ _ _ => cases s <;> exact apart nofun nofun
  | zero s =>
    cases b with
    | zero _ => exact iff_of_true rfl ⟨nofun, rfl⟩
    | notANumber => exact apart nofun nofun
    | infinity t | finite t _ _ _ => cases t <;> exact apart nofun nofun
  | finite s m e pos =>
    cases b with
    | finite t m' e' pos' =>
      have carried : oneZero (.finite s m e pos) = oneZero (.finite t m' e' pos') ↔
          s = t ∧ m = m' ∧ e = e' := by
        constructor
        · intro same
          cases same
          exact ⟨rfl, rfl, rfl⟩
        · rintro ⟨rfl, rfl, rfl⟩
          rfl
      have order : (compare e e').then (compare m m') = .eq ↔ m = m' ∧ e = e' := by
        rw [Ordering.then_eq_eq, Std.LawfulEqCmp.compare_eq_iff_eq,
          Std.LawfulEqCmp.compare_eq_iff_eq, and_comm]
      rw [carried, and_iff_right nofun]
      cases s <;> cases t
      · exact (Option.some_inj.trans (Ordering.swap_eq_eq.trans order)).trans (and_iff_right rfl).symm
      · exact iff_of_false nofun nofun
      · exact iff_of_false nofun nofun
      · exact (Option.some_inj.trans order).trans (and_iff_right rfl).symm
    | notANumber => cases s <;> exact apart nofun nofun
    | zero _ => cases s <;> exact apart nofun nofun
    | infinity t => cases t <;> exact apart nofun nofun

variable {x y z : Float}

/-- **Equal numbers** are the same but for the sign of zero, and they are numbers. -/
theorem beq_iff : (x == y) = true ↔
    x.isNaN = false ∧ oneZero x.toModel.unpack = oneZero y.toModel.unpack := by
  change (x.toModel.unpack.compare y.toModel.unpack == some .eq) = true ↔
    x.toModel.unpack.isNaN = false ∧ _
  rw [isNaN_eq_false_iff]
  exact beq_iff_eq.trans compare_eq_iff

/-- Only what is not a number differs from itself. -/
theorem beq_self_iff : (x == x) = true ↔ x.isNaN = false := by
  rw [beq_iff]
  exact and_iff_left rfl

theorem isNaN_of_beq (same : (x == y) = true) : x.isNaN = false :=
  (beq_iff.1 same).1

theorem isNaN_congr (same : oneZero x.toModel.unpack = oneZero y.toModel.unpack) :
    x.isNaN = y.isNaN := by
  change x.toModel.unpack.isNaN = y.toModel.unpack.isNaN
  have merged : ∀ u : UnpackedFloat, (oneZero u).isNaN = u.isNaN := by
    intro u
    cases u <;> rfl
  rw [← merged, same, merged]

theorem beq_comm : (x == y) = (y == x) := by
  rw [Bool.eq_iff_iff, beq_iff, beq_iff]
  constructor
  · rintro ⟨number, same⟩
    exact ⟨(isNaN_congr same).symm.trans number, same.symm⟩
  · rintro ⟨number, same⟩
    exact ⟨(isNaN_congr same).symm.trans number, same.symm⟩

theorem beq_trans (first : (x == y) = true) (second : (y == z) = true) : (x == z) = true := by
  obtain ⟨number, same⟩ := beq_iff.1 first
  exact beq_iff.2 ⟨number, same.trans (beq_iff.1 second).2⟩

end WorldModel.Number
