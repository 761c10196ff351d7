/-
JSON values and their text.

A value keeps the order of its fields. Numbers are kept as the text that stands for
them, so that a value is written as it was decided elsewhere. There are two written
forms: the compact one without any blanks, and the indented one with two spaces for
every level, in which an empty array or object stays on its line.
-/
import WorldModel.Number.Decimal
import WorldModel.Text.Quoted

set_option autoImplicit false

namespace WorldModel

/-- A JSON value. -/
inductive Json where
  | null
  | bool (b : Bool)
  | number (literal : String)
  | string (s : String)
  | array (items : List Json)
  | object (fields : List (String × Json))
deriving Inhabited

namespace Json

/-! ## Values of common types -/

/-- A natural number. -/
def nat (n : Nat) : Json :=
  number (toString n)

/-- Some strings. -/
def strings (ss : List String) : Json :=
  array (ss.map string)

/-- A value that may be missing, as null. -/
def optional {α : Type} (f : α → Json) : Option α → Json
  | some a => f a
  | none => null

/-- From this magnitude on a number is written with an exponent. -/
def greatestPositional : Float :=
  1e16

/-- Below this magnitude a number is written with an exponent. -/
def leastPositional : Float :=
  1e-5

/-- Scientific notation: one digit before the point, the others behind it, and an
exponent with its sign. -/
def scientific (d : Number.Decimal) : List Char :=
  let t := d.trimmed
  let ds := Number.digitChars t.digits
  let e := t.exponent + (ds.length : Int) - 1
  ds.take 1 ++ (if ds.length ≤ 1 then [] else '.' :: ds.drop 1) ++
    ['e', if 0 ≤ e then '+' else '-'] ++ Number.digitChars e.natAbs

/-- **A floating-point number**: the fewest digits that read back, positionally with
a fraction between 0.00001 and 10000000000000000 and in scientific notation outside;
null if it is not finite. -/
def float (x : Float) : Json :=
  if Number.infinityBits ≤ Number.magnitudeBits x then null
  else
    let d := Number.shortest .even x
    let whole := 0 ≤ d.trimmed.exponent
    let positional := d.positional ++ if whole then ['.', '0'] else []
    let outside := x != 0 && (x.abs < leastPositional || greatestPositional ≤ x.abs)
    number (String.ofList
      (Number.signChars x ++ if outside then scientific d else positional))

/-! ## Text -/

/-- Four digits to base 16. -/
def hex4 (n : Nat) : List Char :=
  let ds := Text.hexDigits n
  List.replicate (4 - ds.length) '0' ++ ds

/-- A character inside a string. -/
def stringChar (c : Char) : List Char :=
  if c = '"' then ['\\', '"']
  else if c = '\\' then ['\\', '\\']
  else if c.toNat = 8 then ['\\', 'b']
  else if c.toNat = 12 then ['\\', 'f']
  else if c = '\n' then ['\\', 'n']
  else if c = '\r' then ['\\', 'r']
  else if c = '\t' then ['\\', 't']
  else if c.toNat < 32 then ['\\', 'u'] ++ hex4 c.toNat
  else [c]

/-- A string as text. -/
def stringText (s : String) : String :=
  String.ofList ('"' :: s.toList.flatMap stringChar ++ ['"'])

mutual

/-- **The compact form.** -/
def compact : Json → String
  | null => "null"
  | bool b => if b then "true" else "false"
  | number l => l
  | string s => stringText s
  | array items => "[" ++ compactItems items ++ "]"
  | object fields => "\x7b" ++ compactFields fields ++ "\x7d"

/-- The items of an array, separated by commas. -/
def compactItems : List Json → String
  | [] => ""
  | [j] => compact j
  | j :: k :: js => compact j ++ "," ++ compactItems (k :: js)

/-- The fields of an object, separated by commas. -/
def compactFields : List (String × Json) → String
  | [] => ""
  | [(key, j)] => stringText key ++ ":" ++ compact j
  | (key, j) :: f :: fs => stringText key ++ ":" ++ compact j ++ "," ++ compactFields (f :: fs)

end

/-- A new line with two spaces for every level. -/
def newline (level : Nat) : String :=
  "\n" ++ String.ofList (List.replicate (2 * level) ' ')

mutual

/-- **The indented form**, inside `level` arrays and objects. -/
def indented (level : Nat) : Json → String
  | null => "null"
  | bool b => if b then "true" else "false"
  | number l => l
  | string s => stringText s
  | array [] => "[]"
  | array (j :: js) =>
    "[" ++ newline (level + 1) ++ indented (level + 1) j ++ indentedItems (level + 1) js ++
      newline level ++ "]"
  | object [] => "\x7b\x7d"
  | object ((key, j) :: fs) =>
    "\x7b" ++ newline (level + 1) ++ stringText key ++ ": " ++ indented (level + 1) j ++
      indentedFields (level + 1) fs ++ newline level ++ "\x7d"

/-- The items behind the first one, each on a new line. -/
def indentedItems (level : Nat) : List Json → String
  | [] => ""
  | j :: js => "," ++ newline level ++ indented level j ++ indentedItems level js

/-- The fields behind the first one, each on a new line. -/
def indentedFields (level : Nat) : List (String × Json) → String
  | [] => ""
  | (key, j) :: fs =>
    "," ++ newline level ++ stringText key ++ ": " ++ indented level j ++
      indentedFields level fs

end

end Json

end WorldModel
