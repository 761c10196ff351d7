/-
Reading a TOML document: lines that are blank, hold a comment, open a table, or give a
key its value. Values may run over several lines.

Two bounds are part of the format as it is read here: values nest at most `maxNesting`
deep, and a dotted key has at most `maxParts` parts. The number of lines, and that of the
items of a value, are bounded by the length of the text.
-/
import WorldModel.Toml.Text

set_option autoImplicit false

namespace WorldModel.Toml

/-! ## Blanks -/

/-- Without the blanks in front, inside the line. -/
def skipSpaces (cs : List Char) : List Char :=
  cs.dropWhile isSpace

/-- Without blanks, line breaks and comments in front; nothing if a comment holds a
control character. -/
def skipTrivia (inComment : Bool) : List Char → Option (List Char)
  | [] => some []
  | c :: cs =>
    if c = '\n' then skipTrivia false cs
    else if c = '\r' then if cs.head? = some '\n' then skipTrivia inComment cs else none
    else if inComment then if isPlain c then skipTrivia true cs else none
    else if isSpace c then skipTrivia false cs
    else if c = '#' then skipTrivia true cs
    else some (c :: cs)

/-- What follows the end of a line: blanks, an optional comment, and a line break or
the end of the text. -/
def afterLine? (cs : List Char) : Option (List Char) :=
  let cs := skipSpaces cs
  let cs := if cs.head? = some '#' then cs.dropWhile isPlain else cs
  if cs.isEmpty then some [] else (breakLength? cs).map fun n => cs.drop n

/-! ## Keys -/

/-- A character of a key without quotes. -/
def isKeyChar (c : Char) : Bool :=
  c.isAlphanum || c == '_' || c == '-'

/-- One part of a key, with what follows it. -/
def keyPart? (cs : List Char) : Option (String × List Char) :=
  match cs with
  | [] => none
  | c :: rest =>
    if c = '"' then readBasic 0 [] rest
    else if c = apostrophe then readLiteral rest
    else
      let w := cs.takeWhile isKeyChar
      if w.isEmpty then none else some (String.ofList w, cs.dropWhile isKeyChar)

/-- The parts of a key, of which there are at most `most`, with what follows it; blanks
may stand around each part. -/
def keyParts? : (most : Nat) → List Char → Option (List String × List Char)
  | 0, _ => none
  | most + 1, cs =>
    match keyPart? (skipSpaces cs) with
    | none => none
    | some (k, rest) =>
      match skipSpaces rest with
      | '.' :: more => (keyParts? most more).map fun p => (k :: p.1, p.2)
      | rest => some ([k], rest)

/-- The greatest number of parts of a key. -/
def maxParts : Nat := 79

/-- A key with what follows it. -/
def key? (cs : List Char) : Option (List String × List Char) :=
  keyParts? maxParts cs

/-- Adds a value under a key. -/
def putAt (path : List String) (v : Toml) (es : Entries) : Option Entries :=
  match path.getLast? with
  | some k => es.put path.dropLast k v
  | none => none

/-! ## Values -/

/-- A value that is one word, with what follows it. -/
def wordValue? (cs : List Char) : Option (Toml × List Char) :=
  let (w, rest) := takeWord cs
  (word? w).map (·, rest)

/-- How deep arrays and tables in values may nest. -/
def maxNesting : Nat := 79

mutual

/-- **A value** with what follows it; inside it, arrays and tables may nest `room` deep. -/
def value? : (fuel room : Nat) → List Char → Option (Toml × List Char)
  | 0, _, _ => none
  | _ + 1, _, [] => none
  | fuel + 1, room, c :: rest =>
    if c = '"' ∨ c = apostrophe then (readString (c :: rest)).map fun p => (.string p.1, p.2)
    else if c = '[' ∨ c = '{' then
      match room with
      | 0 => none
      | room + 1 =>
        if c = '[' then (items? fuel room [] rest).map fun p => (.array p.1, p.2)
        else if (skipSpaces rest).head? = some '}' then
          some (.table [], (skipSpaces rest).tail)
        else (pairs? fuel room [] rest).map fun p => (.table (Draft.finishEntries p.1), p.2)
    else wordValue? (c :: rest)

/-- The items of an array up to its bracket, those read so far coming in reverse. -/
def items? : (fuel room : Nat) → List Toml → List Char → Option (List Toml × List Char)
  | 0, _, _, _ => none
  | fuel + 1, room, acc, cs => do
    match ← skipTrivia false cs with
    | ']' :: rest => some (acc.reverse, rest)
    | cs =>
      let (v, rest) ← value? fuel room cs
      match ← skipTrivia false rest with
      | ',' :: more => items? fuel room (v :: acc) more
      | ']' :: more => some ((v :: acc).reverse, more)
      | _ => none

/-- The entries of a table on one line up to its brace. -/
def pairs? : (fuel room : Nat) → Entries → List Char → Option (Entries × List Char)
  | 0, _, _, _ => none
  | fuel + 1, room, es, cs => do
    let (path, rest) ← key? cs
    let (v, rest) ← value? fuel room (skipSpaces (← after? '=' rest))
    let es ← putAt path v es
    match skipSpaces rest with
    | ',' :: more => pairs? fuel room es more
    | '}' :: more => some (es, more)
    | _ => none

end

/-! ## Documents -/

/-- What has been read of a document: its tables, and the header of the present one. -/
structure Progress where
  entries : Entries
  here : List String

/-- A header from behind its first bracket, with what follows its line. -/
def header? (p : Progress) (cs : List Char) : Option (Progress × List Char) :=
  match cs with
  | '[' :: inner => do
    let (path, rest) ← key? inner
    let rest ← afterLine? (← after? ']' (← after? ']' rest))
    let es ← p.entries.openElement path
    return (⟨es, path⟩, rest)
  | _ => do
    let (path, rest) ← key? cs
    let rest ← afterLine? (← after? ']' rest)
    let es ← p.entries.openTable path
    return (⟨es, path⟩, rest)

/-- A key and its value, with what follows the line. -/
def assignment? (p : Progress) (cs : List Char) : Option (Progress × List Char) := do
  let (path, rest) ← key? cs
  let (v, rest) ← value? (cs.length + 1) maxNesting (skipSpaces (← after? '=' rest))
  let rest ← afterLine? rest
  let es ← Entries.within (putAt path v) p.here p.entries
  return (⟨es, p.here⟩, rest)

/-- The lines of a document, of which there are at most `fuel`. -/
def document? : (fuel : Nat) → Progress → List Char → Option Entries
  | 0, _, _ => none
  | fuel + 1, p, cs => do
    match ← skipTrivia false cs with
    | [] => some p.entries
    | '[' :: rest =>
      let (p, rest) ← header? p rest
      document? fuel p rest
    | cs =>
      let (p, rest) ← assignment? p cs
      document? fuel p rest

/-- **The top table of a document**, nothing if it is malformed. A byte order mark in
front is ignored. -/
def parse (s : String) : Option (List (String × Toml)) :=
  let cs := s.toList
  let cs := if cs.head? = some (Char.ofNat 0xFEFF) then cs.tail else cs
  (document? (cs.length + 1) ⟨[], []⟩ cs).map Draft.finishEntries

end WorldModel.Toml
