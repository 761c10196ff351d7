/-
S-expressions: words and parenthesised lists, each with the range of bytes it was
read from.

The one written form of an expression is its words and parentheses with a single
space between the items of a list; where it stood in a text is not part of it.
-/

set_option autoImplicit false

namespace WorldModel

/-- A range of bytes of a text: from `start` up to, not including, `stop`. -/
structure Span where
  start : Nat
  stop : Nat
deriving DecidableEq, Inhabited

/-- A word or a list of expressions. -/
inductive SExpr where
  | atom (text : String) (span : Span)
  | list (items : List SExpr) (span : Span)
deriving Inhabited

namespace SExpr

/-- Where the expression was read. -/
def span : SExpr → Span
  | atom _ s => s
  | list _ s => s

/-- The text of a word. -/
def atom? : SExpr → Option String
  | atom t _ => some t
  | list _ _ => none

/-- The items of a list. -/
def list? : SExpr → Option (List SExpr)
  | atom _ _ => none
  | list items _ => some items

/-- The word at the beginning of a list, if there is one. -/
def head? : SExpr → Option String
  | list (atom t _ :: _) _ => some t
  | _ => none

mutual

/-- **The written form.** -/
def text : SExpr → String
  | atom t _ => t
  | list [] _ => "()"
  | list (x :: xs) _ => "(" ++ text x ++ textAll xs ++ ")"

/-- The written forms of several expressions, each with a space before it. -/
def textAll : List SExpr → String
  | [] => ""
  | x :: xs => " " ++ text x ++ textAll xs

end

end SExpr

end WorldModel
