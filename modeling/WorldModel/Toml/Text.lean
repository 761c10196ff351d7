/-
Strings of TOML, read and written.

There are four kinds: in double quotes with escapes or in single quotes without, each
on one line or, between triple quotes, over several. A line feed right after the
opening triple quotes is dropped, and a backslash at the end of a line swallows the
blanks up to the next character. Up to two quotes may stand before closing triple
quotes.

A string is written in double quotes if nothing in it needs an escape, else in single
quotes if it has none of them, else over several lines if that spares escapes, and
only otherwise with escapes.
-/
import WorldModel.Text.Quoted
import WorldModel.Toml.Scalar

set_option autoImplicit false

namespace WorldModel.Toml

/-! ## Characters -/

/-- The single quote. -/
def apostrophe : Char :=
  Char.ofNat 39

/-- A character that may stand for itself: no control character but the tab. -/
def isPlain (c : Char) : Bool :=
  c == '\t' || (0x20 ≤ c.toNat && c.toNat != 0x7F)

/-- The character of a code written in `width` hexadecimal digits. -/
def codeChar? (width : Nat) (cs : List Char) : Option Char :=
  let ds := cs.take width
  if ds.length = width then
    match (ds.mapM (digitOf? 16)).map (·.foldl (fun n d => 16 * n + d) 0) with
    | some n => if h : n.isValidChar then some (Char.ofNatAux n h) else none
    | none => none
  else none

/-- The character of an escape, from what stands behind the backslash, and the number
of characters the escape takes there. -/
def escape? : List Char → Option (Char × Nat)
  | 'b' :: _ => some (Char.ofNat 8, 1)
  | 't' :: _ => some ('\t', 1)
  | 'n' :: _ => some ('\n', 1)
  | 'f' :: _ => some (Char.ofNat 12, 1)
  | 'r' :: _ => some ('\r', 1)
  | '"' :: _ => some ('"', 1)
  | '\\' :: _ => some ('\\', 1)
  | 'u' :: cs => (codeChar? 4 cs).map (·, 5)
  | 'U' :: cs => (codeChar? 8 cs).map (·, 9)
  | _ => none

/-! ## Reading -/

/-- A string in double quotes from behind the opening one, with what follows it. The
characters read so far come in reverse, and `skip` more belong to an escape. -/
def readBasic (skip : Nat) (acc : List Char) : List Char → Option (String × List Char)
  | [] => none
  | c :: cs =>
    if 0 < skip then readBasic (skip - 1) acc cs
    else if c = '"' then some (String.ofList acc.reverse, cs)
    else if c = '\\' then
      match escape? cs with
      | some (d, n) => readBasic n (d :: acc) cs
      | none => none
    else if isPlain c then readBasic 0 (c :: acc) cs
    else none

/-- A string in single quotes from behind the opening one, with what follows it. -/
def readLiteral (cs : List Char) : Option (String × List Char) :=
  let body := cs.takeWhile fun c => isPlain c && c != apostrophe
  match cs.drop body.length with
  | c :: rest => if c = apostrophe then some (String.ofList body, rest) else none
  | [] => none

/-- A blank inside a line. -/
def isSpace (c : Char) : Bool :=
  c == ' ' || c == '\t'

/-- The number of characters of the line break in front, if there is one. -/
def breakLength? : List Char → Option Nat
  | '\n' :: _ => some 1
  | '\r' :: '\n' :: _ => some 2
  | _ => none

/-- The number of blanks and line breaks in front. -/
def blankLength : List Char → Nat
  | [] => 0
  | c :: cs =>
    if isSpace c ∨ c = '\n' ∨ (c = '\r' ∧ cs.head? = some '\n') then blankLength cs + 1 else 0

/-- The number of characters that a backslash at the end of a line swallows. -/
def continuation? (cs : List Char) : Option Nat :=
  let spaces := (cs.takeWhile isSpace).length
  if (breakLength? (cs.drop spaces)).isSome then some (blankLength cs) else none

/-- The quotes of one kind in front, before those that close: at most two. -/
def innerQuotes (quote : Char) (cs : List Char) : Nat :=
  min 2 (cs.takeWhile (· == quote)).length

/-- Whether triple quotes stand in front. -/
def startsTriple (quote : Char) (cs : List Char) : Bool :=
  cs.take 3 == [quote, quote, quote]

/-- The end of a string of several lines: what is behind the first triple quotes, `acc`
being what was read before. -/
def closeTriple (quote : Char) (acc behind : List Char) : String × List Char :=
  let inner := innerQuotes quote behind
  (String.ofList (acc.reverse ++ List.replicate inner quote), behind.drop inner)

/-- A string over several lines from behind the opening quotes, with what follows it.
Escapes count only between double quotes. -/
def readLines (quote : Char) (skip : Nat) (acc : List Char) :
    List Char → Option (String × List Char)
  | [] => none
  | c :: cs =>
    if 0 < skip then readLines quote (skip - 1) acc cs
    else if startsTriple quote (c :: cs) then some (closeTriple quote acc (cs.drop 2))
    else if c = '\\' ∧ quote = '"' then
      match continuation? cs with
      | some n => readLines quote n acc cs
      | none =>
        match escape? cs with
        | some (d, n) => readLines quote n (d :: acc) cs
        | none => none
    else if c = '\n' then readLines quote 0 ('\n' :: acc) cs
    else if c = '\r' ∧ cs.head? = some '\n' then readLines quote 0 acc cs
    else if isPlain c then readLines quote 0 (c :: acc) cs
    else none

/-- A string over several lines, without a line break right behind its opening. -/
def readTriple (quote : Char) (cs : List Char) : Option (String × List Char) :=
  readLines quote ((breakLength? cs).getD 0) [] cs

/-- **A string** of any kind in front, with what follows it. -/
def readString (cs : List Char) : Option (String × List Char) :=
  if startsTriple '"' cs then readTriple '"' (cs.drop 3)
  else if startsTriple apostrophe cs then readTriple apostrophe (cs.drop 3)
  else
    match cs with
    | '"' :: rest => readBasic 0 [] rest
    | c :: rest => if c = apostrophe then readLiteral rest else none
    | [] => none

/-! ## Writing -/

/-- The length of the longest run of a character; `run` is that of the present one. -/
def longestRun (c : Char) (run : Nat) : List Char → Nat
  | [] => run
  | d :: cs => if d = c then longestRun c (run + 1) cs else max run (longestRun c 0 cs)

/-- A control character other than tab and line feed. -/
def isControl (c : Char) : Bool :=
  !isPlain c && c != '\n'

/-- A character written as an escape or as itself; `multi` keeps line feeds, and
`quotes` is the number of double quotes right before it, of which two may stand
together in a text of several lines. -/
def escaped (multi : Bool) (quotes : Nat) (c : Char) : List Char :=
  if c = '"' then if multi ∧ quotes < 2 then ['"'] else ['\\', '"']
  else if c = '\\' then ['\\', '\\']
  else if c = '\n' then if multi then ['\n'] else ['\\', 'n']
  else if c = '\t' then ['\\', 't']
  else if c.toNat = 8 then ['\\', 'b']
  else if c.toNat = 12 then ['\\', 'f']
  else if c = '\r' then ['\\', 'r']
  else if isPlain c then [c]
  else
    let ds := (Text.hexDigits c.toNat).map Char.toUpper
    ['\\', 'u'] ++ List.replicate (4 - ds.length) '0' ++ ds

/-- Characters with escapes, after `quotes` double quotes. -/
def escapedAll (multi : Bool) (quotes : Nat) : List Char → List Char
  | [] => []
  | c :: cs =>
    let more := if c = '"' then (if multi ∧ quotes < 2 then quotes + 1 else 0) else 0
    escaped multi quotes c ++ escapedAll multi more cs

/-- A text between delimiters; one of several lines starts on a new one. -/
def delimited (quote : Char) (multi broken : Bool) (body : List Char) : List Char :=
  let ds := if multi then [quote, quote, quote] else [quote]
  ds ++ (if multi && broken then ['\n'] else []) ++ body ++ ds

/-- **A string as written.** -/
def stringText (s : String) : String :=
  let cs := s.toList
  let control := cs.any isControl
  let backslash := cs.contains '\\'
  let broken := cs.contains '\n'
  let doubles := longestRun '"' 0 cs
  let singles := longestRun apostrophe 0 cs
  String.ofList <|
    if !control && !backslash && doubles == 0 && !broken then
      delimited '"' false broken (escapedAll false 0 cs)
    else if !control && singles == 0 && !broken then
      delimited apostrophe false broken cs
    else if !control && !backslash && doubles ≤ 2 then
      delimited '"' true broken (escapedAll true 0 cs)
    else if !control && singles ≤ 2 then
      delimited apostrophe true broken cs
    else delimited '"' broken broken (escapedAll broken 0 cs)

end WorldModel.Toml
