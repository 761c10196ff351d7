/-
Numbers of 64 bits in exact arithmetic. Every finite number is a whole multiple of
the least positive one, the unit `2^-1074`; this file takes a number apart into units
and finds the number nearest to a given fraction, both on natural numbers only, so
that reading and writing decimals (`WorldModel.Number.Decimal`) never touch a
rounding they did not ask for.

The bit pattern of a non-negative finite number is `scale * 2^52 + mantissa`, and the
number is `mantissa * 2^scale` units. A mantissa has 53 bits unless the scale is 0.
This holds for the small (denormal) numbers as well as for the others, and a mantissa
that rounds up to `2^53` carries into the scale by itself.
-/

set_option autoImplicit false

namespace WorldModel.Number

/-! ## Taking a number apart -/

/-- The bit of the sign, `2^63`; the bits below it are the magnitude. -/
def signBit : Nat := 0x8000000000000000

/-- The number of fractions, `2^52`: the mantissas that share a scale. -/
def fractions : Nat := 0x10000000000000

/-- How many halvings lead from one to the unit. -/
def unitPlaces : Nat := 1074

/-- The bit pattern of positive infinity: every pattern below it, sign apart, is
finite. -/
def infinityBits : Nat := 0x7FF0000000000000

/-- The bit pattern of what is not a number. -/
def undefinedBits : Nat := 0x7FF8000000000000

/-- The bit pattern without its sign. -/
def magnitudeBits (x : Float) : Nat :=
  x.toBits.toNat % signBit

/-- Whether the sign bit is set. -/
def isNegative (x : Float) : Bool :=
  signBit ≤ x.toBits.toNat

/-- The scale of a finite number: how often its mantissa is doubled. -/
def scale (x : Float) : Nat :=
  magnitudeBits x / fractions - 1

/-- The mantissa of a finite number, which is `mantissa x * 2 ^ scale x` units, the
sign apart. -/
def mantissa (x : Float) : Nat :=
  magnitudeBits x - scale x * fractions

/-! ## The nearest number -/

/-- The quotient rounded to the nearest natural number, a half to the even one. -/
def divRoundEven (num den : Nat) : Nat :=
  let q := num / den
  let r := num % den
  if 2 * r < den then q
  else if den < 2 * r then q + 1
  else if q % 2 = 0 then q else q + 1

/-- The bit pattern of the number nearest to `num / den`, a half going to the even
mantissa; from the middle between the greatest number and the next power of two on,
infinity. The scale is the one that leaves 53 bits of the whole units. -/
def nearestBits (num den : Nat) : Nat :=
  let units := num * Nat.pow 2 unitPlaces
  let shift := (units / den).log2 - 52
  min infinityBits (shift * fractions + divRoundEven units (den * Nat.pow 2 shift))

/-- The number with the given sign and magnitude bits. -/
def ofMagnitude (negative : Bool) (bits : Nat) : Float :=
  Float.ofBits (UInt64.ofNat (bits + (if negative then signBit else 0)))

end WorldModel.Number
