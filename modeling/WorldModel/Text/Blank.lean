/-
Blank characters: the characters that carry the Unicode property White_Space,
and the two operations of this library that look at nothing else, trimming a
text and asking whether anything but blanks is in it.

The set is a property of the standard and not of a keyboard: a no-break space
and an ideographic space are blank, a zero width space is not. Everything that
separates words in this library separates them at these characters.
-/

set_option autoImplicit false

namespace WorldModel.Text

/-! ## The set -/

/-- A character with the property White_Space. -/
def isBlank (c : Char) : Bool :=
  let n := c.toNat
  (9 ≤ n && n ≤ 13) || n == 0x20 || n == 0x85 || n == 0xA0 || n == 0x1680 ||
    (0x2000 ≤ n && n ≤ 0x200A) || n == 0x2028 || n == 0x2029 || n == 0x202F ||
    n == 0x205F || n == 0x3000

/-! ## Trimming -/

/-- The characters without the blanks at either end. -/
def trimChars (cs : List Char) : List Char :=
  ((cs.dropWhile isBlank).reverse.dropWhile isBlank).reverse

/-- The text without the blanks at either end. -/
def trim (s : String) : String :=
  String.ofList (trimChars s.toList)

/-- Whether the text is empty or holds blanks only. -/
def isAllBlank (s : String) : Bool :=
  s.toList.all isBlank

end WorldModel.Text
