/-
Text in double quotes, for people: a quote and a backslash get a backslash, the
common control characters their letters, and any other character that would not
show its code in braces.
-/
import WorldModel.Text.HiddenTable

set_option autoImplicit false

namespace WorldModel.Text

/-- Whether a character is written by its code. -/
def isHidden (c : Char) : Bool :=
  inRanges hiddenRanges c

/-- The digits of a number to base 16. -/
def hexDigits (n : Nat) : List Char :=
  Nat.toDigits 16 n

/-- One character inside quotes. -/
def quotedChar (c : Char) : List Char :=
  if c = '"' then ['\\', '"']
  else if c = '\\' then ['\\', '\\']
  else if c = '\n' then ['\\', 'n']
  else if c = '\r' then ['\\', 'r']
  else if c = '\t' then ['\\', 't']
  else if c.toNat = 0 then ['\\', '0']
  else if isHidden c then ['\\', 'u', '{'] ++ hexDigits c.toNat ++ ['}']
  else [c]

/-- A text in double quotes. -/
def quoted (s : String) : String :=
  String.ofList ('"' :: s.toList.flatMap quotedChar ++ ['"'])

end WorldModel.Text
