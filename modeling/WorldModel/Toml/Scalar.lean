/-
The single words of TOML: numbers, truth values and dates. A word is a longest run of
the characters that such values are written with; this file says which words are
values.

* A decimal integer has no zero in front of other digits; hexadecimal, octal and
  binary ones start with `0x`, `0o` or `0b` and have no sign. All fit into 64 bits.
* A float is a decimal integer with a fraction, an exponent or both, or `inf` or
  `nan` with an optional sign. One that is too great is no value, while one that is
  too small in the same way is negative infinity.
* Single underscores may stand between two digits.
* Dates are those of `WorldModel.Toml.Date`.
-/
import WorldModel.Toml.Value

set_option autoImplicit false

namespace WorldModel.Toml

/-! ## Digits -/

/-- The value of a digit to the given base. -/
def digitOf? (base : Nat) (c : Char) : Option Nat :=
  let v :=
    if '0' ≤ c ∧ c ≤ '9' then c.toNat - 48
    else if 'a' ≤ c ∧ c ≤ 'f' then c.toNat - 87
    else if 'A' ≤ c ∧ c ≤ 'F' then c.toNat - 55
    else base
  if v < base then some v else none

/-- The value of digits with single underscores between them. `after` tells whether a
digit was the last thing read. -/
def groupedValue (base : Nat) (acc : Nat) (after : Bool) : List Char → Option Nat
  | [] => if after then some acc else none
  | '_' :: cs => if after then groupedValue base acc false cs else none
  | c :: cs =>
    match digitOf? base c with
    | some v => groupedValue base (base * acc + v) true cs
    | none => none

/-- The value of a word of digits to a base. -/
def grouped? (base : Nat) (cs : List Char) : Option Nat :=
  groupedValue base 0 false cs

/-- The value of an unsigned decimal integer: no zero in front of other digits. -/
def wholePart? (cs : List Char) : Option Nat :=
  match cs with
  | '0' :: _ :: _ => none
  | _ => grouped? 10 cs

/-! ## Numbers -/

/-- The first integer too great for 64 bits with sign. -/
def integerBound : Int :=
  0x8000000000000000

/-- An integer if it fits into 64 bits with sign. -/
def bounded? (n : Int) : Option Int :=
  if -integerBound ≤ n ∧ n < integerBound then some n else none

/-- An integer. -/
def integer? (cs : List Char) : Option Int :=
  match cs with
  | '0' :: 'x' :: ds => (grouped? 16 ds).bind fun n => bounded? n
  | '0' :: 'o' :: ds => (grouped? 8 ds).bind fun n => bounded? n
  | '0' :: 'b' :: ds => (grouped? 2 ds).bind fun n => bounded? n
  | _ =>
    let (negative, ds) := Number.splitSign cs
    (wholePart? ds).bind fun n => bounded? (if negative then -(n : Int) else n)

/-- Whether a word is the exponent of a float: a sign and digits. -/
def isExponent (cs : List Char) : Bool :=
  (grouped? 10 (Number.splitSign cs).2).isSome

/-- Splits at the first character with a property, which is left out of both parts. -/
def splitAtFirst (p : Char → Bool) (cs : List Char) : List Char × Option (List Char) :=
  match cs.dropWhile fun c => !p c with
  | [] => (cs, none)
  | _ :: rest => (cs.takeWhile fun c => !p c, some rest)

/-- Whether digits with a fraction, an exponent or both stand in the right places. -/
def isDecimal (ds : List Char) : Bool :=
  let (base, power) := splitAtFirst (fun c => c == 'e' || c == 'E') ds
  let (whole, fraction) := splitAtFirst (· == '.') base
  (wholePart? whole).isSome && (fraction.isSome || power.isSome) &&
    (fraction.all fun f => (grouped? 10 f).isSome) && power.all isExponent

/-- Whether the number nearest to a decimal is infinity. -/
def isTooGreat (ds : List Char) : Bool :=
  Number.magnitude? (ds.filter (· != '_')) == some Number.infinityBits

/-- Whether a word is a float. -/
def isFloat (cs : List Char) : Bool :=
  let (negative, ds) := Number.splitSign cs
  if ds = ['i', 'n', 'f'] ∨ ds = ['n', 'a', 'n'] then true
  else isDecimal ds && (negative || !isTooGreat ds)

/-! ## Words -/

/-- The value of a word. -/
def word? (cs : List Char) : Option Toml :=
  if cs = "true".toList then some (.boolean true)
  else if cs = "false".toList then some (.boolean false)
  else if isFloat cs then some (.float (String.ofList cs))
  else ((date? cs).map .date).or ((integer? cs).map .integer)

/-- The characters of words. -/
def isWordChar (c : Char) : Bool :=
  c.isAlphanum || c == '_' || c == '+' || c == '-' || c == '.' || c == ':'

/-- A word in front and the rest. A day may be followed by a space and a time. -/
def takeWord (cs : List Char) : List Char × List Char :=
  let w := cs.takeWhile isWordChar
  let rest := cs.dropWhile isWordChar
  match day? w, rest with
  | some (_, []), ' ' :: c :: more =>
    if c.isDigit then
      (w ++ 'T' :: (c :: more).takeWhile isWordChar, (c :: more).dropWhile isWordChar)
    else (w, rest)
  | _, _ => (w, rest)

end WorldModel.Toml
