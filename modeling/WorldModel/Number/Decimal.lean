/-
Numbers as decimal text. Reading rounds a decimal to the nearest number; writing
gives the fewest digits that read back as the same number, in positional
notation and without a point when there is no fraction: `80`, `2.5`, `-0`,
`0.0000001`.

**Reading.** An optional sign, then either one of the words `inf`, `infinity`,
`nan` in any case of letters, or digits with an optional point among them (at
least one digit in all) and an optional exponent: `5.`, `.5`, `1e5` and `1.E-3`
are numbers; `.`, `1e`, `0x10` and `1_000` are not.

**Writing.** For one, two, … seventeen digits, the two decimals of that length
around the number are tried, the nearer one first, and the first whose text reads
back wins. So the result reads back by the way the search is made; should it find
nothing, the exact decimal is written, which every number has because a power of two
divides a power of ten. `WorldModel.Number.RoundTrip` proves that both read back.
-/
import WorldModel.Number.Binary

set_option autoImplicit false

namespace WorldModel.Number

/-! ## Decimals -/

/-- The number `digits * 10 ^ exponent`. -/
structure Decimal where
  digits : Nat
  exponent : Int
deriving DecidableEq, Inhabited

/-- Beyond this power of ten, or below its inverse, a decimal with few digits is
out of range; the bound only keeps powers small. -/
def Decimal.exponentBound : Int := 400

/-- The magnitude bits of the number nearest to a decimal. -/
def Decimal.nearest (d : Decimal) : Nat :=
  if d.digits = 0 then 0
  else if 0 ≤ d.exponent then
    if Decimal.exponentBound < d.exponent then infinityBits
    else nearestBits (d.digits * Nat.pow 10 d.exponent.toNat) 1
  else if d.exponent < -(Decimal.exponentBound + (d.digits.log2 : Int)) then 0
  else nearestBits d.digits (Nat.pow 10 (-d.exponent).toNat)

/-! ## Reading -/

/-- A whole text of digits, at least one. -/
def natural? (cs : List Char) : Option Nat :=
  if cs.isEmpty || !cs.all Char.isDigit then none else some (Nat.ofDigitChars 10 cs 0)

/-- The sign in front of a number, `true` for a minus, and what follows it. -/
def splitSign : List Char → Bool × List Char
  | '-' :: cs => (true, cs)
  | '+' :: cs => (false, cs)
  | cs => (false, cs)

/-- The exponent of a decimal: nothing at all, or the letter `e` with a whole
number. -/
def exponent? : List Char → Option Int
  | [] => some 0
  | c :: cs =>
    if c = 'e' ∨ c = 'E' then
      let (negative, ds) := splitSign cs
      (natural? ds).map fun n => if negative then -(n : Int) else n
    else none

/-- The digits behind a point, if there is one, and what follows them. -/
def splitFraction : List Char → List Char × List Char
  | '.' :: cs => (cs.takeWhile Char.isDigit, cs.dropWhile Char.isDigit)
  | cs => ([], cs)

/-- An unsigned decimal. -/
def decimal? (cs : List Char) : Option Decimal :=
  let whole := cs.takeWhile Char.isDigit
  let (fraction, tail) := splitFraction (cs.dropWhile Char.isDigit)
  if whole.isEmpty && fraction.isEmpty then none
  else (exponent? tail).map fun e =>
    ⟨Nat.ofDigitChars 10 (whole ++ fraction) 0, e - (fraction.length : Int)⟩

/-- The words for what no decimal names, in lower case. -/
def word? (cs : List Char) : Option Nat :=
  let w := cs.map Char.toLower
  if w = ['i', 'n', 'f'] ∨ w = ['i', 'n', 'f', 'i', 'n', 'i', 't', 'y'] then some infinityBits
  else if w = ['n', 'a', 'n'] then some undefinedBits
  else none

/-- The magnitude bits that a text without a sign names: a word, or the number nearest
to a decimal. -/
def magnitude? (cs : List Char) : Option Nat :=
  (word? cs).or ((decimal? cs).map Decimal.nearest)

/-- **Reading a number**: the nearest one to what the text names, nothing if the
text names none. -/
def read? (s : String) : Option Float :=
  let (negative, cs) := splitSign s.toList
  (magnitude? cs).map (ofMagnitude negative)

/-! ## Writing -/

/-- The decimal digits of a natural number, most significant first. -/
def digitChars (n : Nat) : List Char :=
  Nat.toDigits 10 n

/-- The decimal without zeros at the end of its digits. -/
def Decimal.trimmed (d : Decimal) : Decimal :=
  let reversed := (digitChars d.digits).reverse
  let zeros := reversed.takeWhile (· == '0')
  let kept := (reversed.dropWhile (· == '0')).reverse
  if d.digits = 0 then ⟨0, 0⟩
  else ⟨Nat.ofDigitChars 10 kept 0, d.exponent + (zeros.length : Int)⟩

/-- Digits with a point before the last `places` of them, and at least one digit
before the point. -/
def pointed (ds : List Char) (places : Nat) : List Char :=
  let padded := List.replicate (places + 1 - ds.length) '0' ++ ds
  padded.take (padded.length - places) ++ '.' :: padded.drop (padded.length - places)

/-- Positional notation: no exponent, and no point when there is no fraction. -/
def Decimal.positional (d : Decimal) : List Char :=
  let t := d.trimmed
  if 0 ≤ t.exponent then digitChars t.digits ++ List.replicate t.exponent.toNat '0'
  else pointed (digitChars t.digits) (-t.exponent).toNat

/-- The exact value of a finite number, its sign apart. A unit is a power of a half,
and a half is five tenths. -/
def exactDecimal (x : Float) : Decimal :=
  let places := unitPlaces - scale x
  ⟨mantissa x * Nat.pow 2 (scale x - unitPlaces) * Nat.pow 5 places, -(places : Int)⟩

/-- Which of two decimals comes first when a number lies exactly between them. -/
inductive Tie where
  /-- The greater one. -/
  | up
  /-- The one whose last digit is even. -/
  | even
deriving DecidableEq

/-- The two decimals of at most `n` digits around `d`, the nearer one first. -/
def Decimal.around (d : Decimal) (tie : Tie) (n : Nat) : List Decimal :=
  let cut := (digitChars d.digits).length - n
  let unit := Nat.pow 10 cut
  let low : Decimal := ⟨d.digits / unit, d.exponent + (cut : Int)⟩
  let high : Decimal := ⟨d.digits / unit + 1, d.exponent + (cut : Int)⟩
  let r := d.digits % unit
  let lowFirst :=
    if 2 * r < unit then true
    else if unit < 2 * r then false
    else match tie with
      | .up => false
      | .even => d.digits / unit % 2 = 0
  if r = 0 then [low] else if lowFirst then [low, high] else [high, low]

/-- Whether the positional text of a decimal is read as the number with these
magnitude bits. -/
def Decimal.reads (d : Decimal) (bits : Nat) : Bool :=
  magnitude? d.positional == some bits

/-- The first decimal of one, two, … seventeen digits around `d` that reads as the
given magnitude. -/
def Decimal.shortest? (d : Decimal) (tie : Tie) (bits : Nat) : Option Decimal :=
  (List.range 17).findSome? fun n => (d.around tie (n + 1)).find? (·.reads bits)

/-- **The shortest decimal** that reads back as the finite number `x`, the sign
apart; of two of one length the nearer one. -/
def shortest (tie : Tie) (x : Float) : Decimal :=
  let d := exactDecimal x
  (d.shortest? tie (magnitudeBits x)).getD d

/-- The sign of a number as text. -/
def signChars (x : Float) : List Char :=
  if isNegative x then ['-'] else []

/-- The text of the magnitude of a number. -/
def magnitudeChars (x : Float) : List Char :=
  if infinityBits = magnitudeBits x then ['i', 'n', 'f'] else (shortest .up x).positional

/-- **Writing a number** in positional notation. -/
def write (x : Float) : String :=
  String.ofList
    (if infinityBits < magnitudeBits x then ['N', 'a', 'N'] else signChars x ++ magnitudeChars x)

end WorldModel.Number
