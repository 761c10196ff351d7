/-
Reading s-expressions.

A text is cut into tokens first: every parenthesis is one, and so is every longest
run of characters that are neither parentheses nor blank. The tokens are then put
together with a stack of the lists that are still open. Two things can go wrong, a
closing parenthesis without an open list and a list that is still open at the end;
of several open lists the innermost is named.
-/
import WorldModel.SExpr.Basic
import WorldModel.Text.Blank

set_option autoImplicit false

namespace WorldModel.SExpr

/-! ## Tokens -/

/-- A piece of text that means something, with its place in bytes. -/
inductive Token where
  | opening (offset : Nat)
  | closing (offset : Nat)
  | word (text : String) (span : Span)
deriving DecidableEq

/-- The number of bytes of some characters. -/
def byteLength : List Char → Nat
  | [] => 0
  | c :: cs => c.utf8Size + byteLength cs

/-- The word that ends at byte `stop`, from its characters in reverse; no word if
there are none. -/
def wordEnding (stop : Nat) (reversed : List Char) : List Token :=
  if reversed.isEmpty then []
  else [.word (String.ofList reversed.reverse) ⟨stop - byteLength reversed, stop⟩]

/-- The tokens of the characters from byte `offset` on, after the characters
`reversed` of a word that has begun. -/
def tokensFrom (offset : Nat) (reversed : List Char) : List Char → List Token
  | [] => wordEnding offset reversed
  | c :: cs =>
    if c = '(' then wordEnding offset reversed ++ .opening offset :: tokensFrom (offset + 1) [] cs
    else if c = ')' then
      wordEnding offset reversed ++ .closing offset :: tokensFrom (offset + 1) [] cs
    else if Text.isBlank c then
      wordEnding offset reversed ++ tokensFrom (offset + c.utf8Size) [] cs
    else tokensFrom (offset + c.utf8Size) (c :: reversed) cs

/-- **The tokens of a text.** -/
def tokens (s : String) : List Token :=
  tokensFrom 0 [] s.toList

/-! ## Expressions -/

/-- What is wrong with the parentheses of a text, and at which byte. -/
inductive ParenError where
  | unexpected (offset : Nat)
  | unclosed (offset : Nat)
deriving DecidableEq

/-- The expressions that tokens stand for. `items` are those read so far of the
innermost open list, last one first; `opened` holds, for every open list, the byte
where it begins and the items before it in the list around it. -/
def assemble (opened : List (Nat × List SExpr)) (items : List SExpr) :
    List Token → Except ParenError (List SExpr)
  | [] =>
    match opened with
    | [] => .ok items.reverse
    | (start, _) :: _ => .error (.unclosed start)
  | .opening start :: ts => assemble ((start, items) :: opened) [] ts
  | .closing offset :: ts =>
    match opened with
    | [] => .error (.unexpected offset)
    | (start, outer) :: rest =>
      assemble rest (list items.reverse ⟨start, offset + 1⟩ :: outer) ts
  | .word text span :: ts => assemble opened (atom text span :: items) ts

/-- **All expressions of a text.** -/
def parse (s : String) : Except ParenError (List SExpr) :=
  assemble [] [] (tokens s)

/-! ## Comments -/

/-- The lines of a text, after the characters `reversed` of a line that has begun. A
line ends at a line feed, which takes a carriage return before it along; what
follows the last line feed is a line only if it is not empty. -/
def linesFrom (reversed : List Char) : List Char → List (List Char)
  | [] => if reversed.isEmpty then [] else [reversed.reverse]
  | c :: cs =>
    if c = '\n' then
      let line := if reversed.head? = some '\r' then reversed.tail else reversed
      line.reverse :: linesFrom [] cs
    else linesFrom (c :: reversed) cs

/-- **Removing comments**: every line is cut at its first semicolon, and the lines
are joined by line feeds. -/
def removeComments (s : String) : String :=
  String.ofList
    (List.intercalate ['\n'] ((linesFrom [] s.toList).map (·.takeWhile (· != ';'))))

end WorldModel.SExpr
