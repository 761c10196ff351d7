/-
Ranges of code points, from which the tables of character properties are made.
-/

set_option autoImplicit false

namespace WorldModel.Text

/-- All code points from `first` to `last`. -/
structure CodeRange where
  first : Nat
  last : Nat

/-- Whether a code point lies in the range. -/
def CodeRange.contains (r : CodeRange) (n : Nat) : Bool :=
  r.first ≤ n && n ≤ r.last

/-- Whether a character lies in one of some ranges. -/
def inRanges (rs : List CodeRange) (c : Char) : Bool :=
  rs.any (·.contains c.toNat)

end WorldModel.Text
