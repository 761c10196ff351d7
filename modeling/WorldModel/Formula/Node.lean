/-
The nodes of a formula. A node has a kind, which for atoms, operators and numbers
carries what the node says, and for the connectives is the connective alone. The
tag of a node is its kind with that content left out; tags have the upper-case
names under which formulas are exchanged.
-/
import WorldModel.Atom
import WorldModel.Operator

set_option autoImplicit false

namespace WorldModel

/-! ## Kinds -/

/-- What a node is. `unknown` marks a fact that may be true, `oneOf` facts of
which exactly one is. -/
inductive NodeKind where
  | and
  | or
  | not
  | unknown
  | oneOf
  | predicate (l : Literal)
  | function (f : Fluent)
  | expression (op : Operator)
  | update (op : UpdateOp)
  | number (value : Float)
deriving BEq, Inhabited

/-- The kind of a node without its content. -/
inductive NodeTag where
  | and
  | or
  | not
  | unknown
  | oneOf
  | predicate
  | function
  | expression
  | update
  | number
deriving DecidableEq, Inhabited

namespace NodeTag

/-- All tags. -/
def all : List NodeTag :=
  [and, or, not, unknown, oneOf, predicate, function, expression, update, number]

/-- The name in exchanged data and in messages. -/
def label : NodeTag → String
  | and => "AND"
  | or => "OR"
  | not => "NOT"
  | unknown => "UNKNOWN"
  | oneOf => "ONE_OF"
  | predicate => "PREDICATE"
  | function => "FUNCTION"
  | expression => "EXPRESSION"
  | update => "FUNCTION_MODIFIER"
  | number => "NUMBER"

/-- The tag of a name in exchanged data. -/
def ofLabel? (s : String) : Option NodeTag :=
  all.find? (·.label == s)

/-- Every tag is found under its name. -/
theorem ofLabel?_label (t : NodeTag) : ofLabel? t.label = some t := by
  cases t <;> decide

end NodeTag

namespace NodeKind

/-- The tag of a kind. -/
def tag : NodeKind → NodeTag
  | and => .and
  | or => .or
  | not => .not
  | unknown => .unknown
  | oneOf => .oneOf
  | predicate _ => .predicate
  | function _ => .function
  | expression _ => .expression
  | update _ => .update
  | number _ => .number

/-- The literal of a PREDICATE node. -/
def literal? : NodeKind → Option Literal
  | predicate l => some l
  | _ => none

/-- The fluent of a FUNCTION node. -/
def fluent? : NodeKind → Option Fluent
  | function f => some f
  | _ => none

/-- The word a node is written with when it is not a leaf. -/
def keyword? : NodeKind → Option String
  | and => some "and"
  | or => some "or"
  | not => some "not"
  | unknown => some "unknown"
  | oneOf => some "oneof"
  | expression op => some op.symbol
  | update op => some op.keyword
  | predicate _ | function _ | number _ => none

/-- **Local equality**: the same tag and the same identity of the content. Argument
types and fluent values do not count; numbers compare as numbers, so that a number
that is not one equals nothing. -/
def same : NodeKind → NodeKind → Bool
  | predicate l, predicate m => l.sameFact m
  | function f, function g => f.sameKey g
  | expression a, expression b => a == b
  | update a, update b => a == b
  | number x, number y => x == y
  | a, b => a.tag == b.tag

/-- The kind with its atom renamed, if it has one. -/
def rename (literalName fluentName : String → String) : NodeKind → NodeKind
  | predicate l => predicate { l with name := literalName l.name }
  | function f => function { f with name := fluentName f.name }
  | k => k

end NodeKind

/-! ## Nodes -/

/-- One node of a formula: its number, its kind and the numbers of its children in
order. -/
structure Node where
  id : Nat
  kind : NodeKind
  children : List Nat
deriving BEq, Inhabited

end WorldModel
