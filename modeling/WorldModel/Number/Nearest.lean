/-
A fraction that is a number exactly is nearest to that number, for fractions of
natural numbers and for decimals.

A number is `m * 2 ^ s` units with a mantissa `m` and a scale `s` in the one pair that
its bits spell (`Canonical`). **Main statements.** `nearestBits_of_eq` and
`nearest_of_units` find these bits again from any fraction, or any decimal with a
fraction, of the same value; `canonical_mantissa_scale` and `scale_mul_add_mantissa`
say that the pair taken from a number's bits is such a pair.
-/
import Mathlib.Tactic.NormNum
import Mathlib.Tactic.Positivity
import Mathlib.Tactic.Ring
import WorldModel.Number.Decimal

set_option autoImplicit false

namespace WorldModel.Number

/-! ## Canonical pairs -/

/-- A mantissa has at most 53 bits, and exactly that many unless the scale is 0. -/
structure Canonical (m s : Nat) : Prop where
  lt : m < 2 ^ 53
  full : 2 ^ 52 ≤ m ∨ s = 0

/-- The mantissa and the scale of a number are canonical. -/
theorem canonical_mantissa_scale (x : Float) : Canonical (mantissa x) (scale x) := by
  constructor <;> unfold mantissa scale fractions <;> omega

/-- The bits are put together again from scale and mantissa. -/
theorem scale_mul_add_mantissa (x : Float) :
    scale x * fractions + mantissa x = magnitudeBits x := by
  unfold mantissa scale fractions
  omega

/-- **The scale is seen in the number of bits** of the whole units. -/
theorem Canonical.log2_sub {m s : Nat} (h : Canonical m s) : (m * 2 ^ s).log2 - 52 = s := by
  rcases h.full with full | rfl
  · have nonzero : m * 2 ^ s ≠ 0 := by positivity
    have bits : (m * 2 ^ s).log2 = 52 + s := by
      rw [Nat.log2_eq_iff nonzero, pow_add, show 52 + s + 1 = 53 + s by omega, pow_add]
      exact ⟨Nat.mul_le_mul_right _ full,
        Nat.mul_lt_mul_of_pos_right h.lt (Nat.two_pow_pos s)⟩
    omega
  · rw [pow_zero, mul_one]
    rcases Nat.eq_zero_or_pos m with rfl | pos
    · rfl
    · have small := (Nat.log2_lt (Nat.ne_of_gt pos)).2 h.lt
      omega

/-! ## Fractions -/

/-- A quotient that is whole is not rounded. -/
theorem divRoundEven_mul (m : Nat) {den : Nat} (pos : 0 < den) :
    divRoundEven (m * den) den = m := by
  simp [divRoundEven, Nat.mul_div_cancel m pos, pos]

/-- **A fraction of `m * 2 ^ s` units** is nearest to the number with these bits. -/
theorem nearestBits_of_eq {num den m s : Nat} (pos : 0 < den) (h : Canonical m s)
    (value : num * 2 ^ unitPlaces = m * 2 ^ s * den) :
    nearestBits num den = min infinityBits (s * fractions + m) := by
  have shift : (num * 2 ^ unitPlaces / den).log2 - 52 = s := by
    rw [value, Nat.mul_div_cancel _ pos, h.log2_sub]
  have whole : num * 2 ^ unitPlaces = m * (den * 2 ^ s) := by
    rw [value]
    ring
  rw [nearestBits]
  simp only [Nat.pow_eq, shift]
  rw [whole, divRoundEven_mul m (Nat.mul_pos pos (Nat.two_pow_pos s))]

/-! ## Decimals -/

/-- Only a decimal of value 0 is 0 units. -/
theorem eq_zero_iff_of_units {n m s j u : Nat} (value : n * 2 ^ u = m * 2 ^ s * 10 ^ j) :
    n = 0 ↔ m = 0 := by
  constructor
  · rintro rfl
    simpa using value.symm
  · rintro rfl
    simpa using value

/-- A decimal of at least one unit is not beyond the bound on exponents: otherwise it
would have to be `10 ^ j` and less than `2 ^ (j + 674)` at once. -/
theorem le_of_units {n m j : Nat} (pos : 0 < m) (value : n * 2 ^ unitPlaces = m * 10 ^ j) :
    j ≤ 400 + n.log2 := by
  by_contra far
  have small : n < 2 ^ (j - 400) :=
    lt_of_lt_of_le Nat.lt_log2_self (Nat.pow_le_pow_right (by decide) (by omega))
  have powers : 2 ^ (3 * j) < 2 ^ (j - 400 + unitPlaces) :=
    calc 2 ^ (3 * j) = 8 ^ j := by rw [pow_mul]; norm_num
      _ ≤ 10 ^ j := Nat.pow_le_pow_left (by decide) j
      _ ≤ m * 10 ^ j := Nat.le_mul_of_pos_left _ pos
      _ = n * 2 ^ unitPlaces := value.symm
      _ < 2 ^ (j - 400) * 2 ^ unitPlaces := Nat.mul_lt_mul_of_pos_right small (Nat.two_pow_pos _)
      _ = 2 ^ (j - 400 + unitPlaces) := (pow_add _ _ _).symm
  have exponents := (Nat.pow_lt_pow_iff_right (by decide)).1 powers
  unfold unitPlaces at exponents
  omega

/-- **A decimal of `m * 2 ^ s` units** is nearest to the number with these bits. -/
theorem nearest_of_units {m s n j : Nat} (h : Canonical m s)
    (value : n * 2 ^ unitPlaces = m * 2 ^ s * 10 ^ j) :
    Decimal.nearest ⟨n, -(j : Int)⟩ = min infinityBits (s * fractions + m) := by
  unfold Decimal.nearest
  split
  · next zero =>
    obtain rfl := (eq_zero_iff_of_units value).1 zero
    rcases h.full with full | rfl
    · simp at full
    · simp
  · next nonzero =>
    simp only at nonzero ⊢
    split
    · next whole =>
      -- an exponent that is neither negative nor positive
      obtain rfl : j = 0 := by omega
      rw [if_neg (by decide)]
      exact nearestBits_of_eq (by decide) h (by simpa using value)
    · have pos : 0 < m * 2 ^ s := Nat.mul_pos
        (Nat.pos_of_ne_zero fun zero => nonzero ((eq_zero_iff_of_units value).2 zero))
        (Nat.two_pow_pos s)
      have near := le_of_units pos value
      rw [if_neg (by unfold Decimal.exponentBound; omega), show (- -(j : Int)).toNat = j by omega]
      exact nearestBits_of_eq (Nat.pow_pos (by decide)) h value

end WorldModel.Number
