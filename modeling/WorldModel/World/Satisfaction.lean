/-
Whether a goal holds in a world.

A positive literal holds when it is stored, a negated one when the positive one is
not; a stored negation makes no difference. Comparisons hold between defined
values, equality up to a small tolerance. A value is undefined when it depends on a
fluent that is not stored or on a division by zero, and what has no truth value, a
number, an update, a contingent head, does not hold. The connectives are those of
two-valued logic over this, so the negation of an undefined comparison holds.
-/
import WorldModel.World.Basic

set_option autoImplicit false

namespace WorldModel

/-! ## Operators -/

/-- How far two values may lie apart and still be equal. -/
def equalityTolerance : Float :=
  1e-9

/-- Whether two values compare as the operator says; arithmetic operators never do. -/
def Operator.compare (op : Operator) (x y : Float) : Bool :=
  match op with
  | greater => x > y
  | greaterEq => x ≥ y
  | less => x < y
  | lessEq => x ≤ y
  | equal => (x - y).abs ≤ equalityTolerance
  | add | sub | mul | div => false

/-- The value of an arithmetic operator; none for a division by zero and for
comparisons. -/
def Operator.combine (op : Operator) (x y : Float) : Option Float :=
  match op with
  | add => some (x + y)
  | sub => some (x - y)
  | mul => some (x * y)
  | div => if y == 0 then none else some (x / y)
  | _ => none

namespace World

/-! ## Values -/

/-- The value of a fluent, the first stored one of its key. -/
def valueOf (w : World) (f : Fluent) : Option Float :=
  (w.fluents.find? (·.sameKey f)).map (·.value)

/-- **The value of a term**, if it has one. -/
def value (w : World) : Term → Option Float
  | .node (.number x) _ => some x
  | .node (.function f) _ => w.valueOf f
  | .node (.expression op) [t] => if op = .sub then (value w t).map (-·) else none
  | .node (.expression op) [t, u] => do
    let x ← value w t
    let y ← value w u
    op.combine x y
  | _ => none

/-! ## Truth -/

/-- Whether the positive form of a literal is stored. -/
def statesAtom (w : World) (l : Literal) : Bool :=
  w.facts.any fun s => !s.negated && s.sameAtom l

/-- Whether a comparison holds between the values of its children. -/
def comparisonHolds (w : World) (op : Operator) : List Term → Bool
  | [t, u] =>
    match w.value t, w.value u with
    | some x, some y => op.compare x y
    | _, _ => false
  | _ => false

mutual

/-- **Truth of a term.** -/
def holdsTerm (w : World) : Term → Bool
  | .node k cs =>
    match k with
    | .and => allHold w cs
    | .or => someHolds w cs
    | .not => soleFails w cs
    | .predicate l => w.statesAtom l != l.negated
    | .expression op => op.isComparison && w.comparisonHolds op cs
    | _ => false

/-- Whether all of several terms hold. -/
def allHold (w : World) : List Term → Bool
  | [] => true
  | t :: ts => holdsTerm w t && allHold w ts

/-- Whether one of several terms holds. -/
def someHolds (w : World) : List Term → Bool
  | [] => false
  | t :: ts => holdsTerm w t || someHolds w ts

/-- Whether there is exactly one term and it does not hold. -/
def soleFails (w : World) : List Term → Bool
  | [] => false
  | t :: ts => ts.isEmpty && !holdsTerm w t

end

/-- **Whether a goal holds**, its atoms under any spelling. The empty goal does. -/
def holds (w : World) (f : Formula) : Bool :=
  match (w.spellFormula f).term? with
  | none => true
  | some t => w.holdsTerm t

end World

end WorldModel
