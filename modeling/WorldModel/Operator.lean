/-
The operators of numeric formulas and the words they are written with.

An expression either compares two values or combines them; an update changes the
value of a fluent. Every operator has one written symbol, and a second, longer
word that names it where formulas are exchanged as data.
-/

set_option autoImplicit false

namespace WorldModel

/-! ## Expressions -/

/-- The operator at the head of a numeric expression. -/
inductive Operator where
  | greater
  | greaterEq
  | less
  | lessEq
  | equal
  | add
  | sub
  | mul
  | div
deriving DecidableEq, Inhabited

namespace Operator

/-- All operators. -/
def all : List Operator :=
  [greater, greaterEq, less, lessEq, equal, add, sub, mul, div]

/-- The written symbol. -/
def symbol : Operator → String
  | greater => ">"
  | greaterEq => ">="
  | less => "<"
  | lessEq => "<="
  | equal => "="
  | add => "+"
  | sub => "-"
  | mul => "*"
  | div => "/"

/-- The operator a symbol stands for. -/
def ofSymbol? (s : String) : Option Operator :=
  all.find? (·.symbol == s)

/-- Every operator is found under its symbol. -/
theorem ofSymbol?_symbol (op : Operator) : ofSymbol? op.symbol = some op := by
  cases op <;> decide

/-- The name in exchanged data. -/
def label : Operator → String
  | greater => "greater"
  | greaterEq => "greater_eq"
  | less => "less"
  | lessEq => "less_eq"
  | equal => "equal"
  | add => "add"
  | sub => "sub"
  | mul => "mul"
  | div => "div"

/-- The operator of a name in exchanged data. -/
def ofLabel? (s : String) : Option Operator :=
  all.find? (·.label == s)

/-- Every operator is found under its name in exchanged data. -/
theorem ofLabel?_label (op : Operator) : ofLabel? op.label = some op := by
  cases op <;> decide

/-- Comparisons yield a truth value, the others a number. -/
def isComparison : Operator → Bool
  | greater | greaterEq | less | lessEq | equal => true
  | add | sub | mul | div => false

end Operator

/-! ## Updates -/

/-- The operator at the head of a change to a fluent. -/
inductive UpdateOp where
  | assign
  | increase
  | decrease
  | scaleUp
  | scaleDown
deriving DecidableEq, Inhabited

namespace UpdateOp

/-- All update operators. -/
def all : List UpdateOp :=
  [assign, increase, decrease, scaleUp, scaleDown]

/-- The written keyword, which is also the name in exchanged data. -/
def keyword : UpdateOp → String
  | assign => "assign"
  | increase => "increase"
  | decrease => "decrease"
  | scaleUp => "scale-up"
  | scaleDown => "scale-down"

/-- The update operator a keyword stands for. -/
def ofKeyword? (s : String) : Option UpdateOp :=
  all.find? (·.keyword == s)

/-- Every update operator is found under its keyword. -/
theorem ofKeyword?_keyword (op : UpdateOp) : ofKeyword? op.keyword = some op := by
  cases op <;> decide

end UpdateOp

end WorldModel
