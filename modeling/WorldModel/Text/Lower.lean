/-
Lower-casing of text, by the full mapping of the Unicode standard without
locales. Three rules cover every character:

* a capital with a single counterpart becomes it (`caseRanges`);
* a dotted capital I becomes two characters, `i` and a combining dot;
* a capital sigma becomes `ς` at the end of a word and `σ` elsewhere.

Only the third looks at its neighbours. A word ends at a sigma when a cased
letter stands before it and none after it, marks, apostrophes and the like being
passed over on both sides.
-/
import WorldModel.Text.CaseTable

set_option autoImplicit false

namespace WorldModel.Text

/-! ## One character -/

/-- A letter that has case. -/
def isCased (c : Char) : Bool :=
  inRanges casedRanges c

/-- A character that is passed over when the end of a word is looked for. -/
def isCaseIgnorable (c : Char) : Bool :=
  inRanges ignorableRanges c

/-- The counterpart of a capital that has a single one; any other character is
its own. -/
def lowerSimple (c : Char) : Char :=
  match caseRanges.find? (·.contains c.toNat) with
  | some r => Char.ofNat (r.target + (c.toNat - r.first))
  | none => c

/-- Whether the first character that is not passed over is a cased letter. -/
def meetsCased (cs : List Char) : Bool :=
  match cs.dropWhile isCaseIgnorable with
  | [] => false
  | c :: _ => isCased c

/-- The lower case of one character, given what stands before it (nearest first)
and after it. -/
def lowerChar (before : List Char) (c : Char) (after : List Char) : List Char :=
  if c = 'Σ' then
    if meetsCased before && !meetsCased after then ['ς'] else ['σ']
  else if c = 'İ' then ['i', Char.ofNat 0x307]
  else [lowerSimple c]

/-! ## A text -/

/-- The lower case of the characters that follow `before` (nearest first). -/
def lowerAfter (before : List Char) : List Char → List Char
  | [] => []
  | c :: cs => lowerChar before c cs ++ lowerAfter (c :: before) cs

/-- The lower case of a text. -/
def lower (s : String) : String :=
  String.ofList (lowerAfter [] s.toList)

end WorldModel.Text
