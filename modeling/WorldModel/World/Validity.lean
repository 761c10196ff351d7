/-
Validity against the domain.

A literal or fluent is valid when its signature is declared, the number of its
arguments is right, and each argument names an object of the world whose type the
position accepts. A formula is valid when its atoms are and every NOT and UNKNOWN
has exactly one child; what stands below an atom is not looked at. A contingent
fact must also have one of three shapes.
-/
import WorldModel.World.Basic

set_option autoImplicit false

namespace WorldModel

namespace World

/-! ## Atoms -/

/-- Whether an argument names an object that the position accepts. -/
def fits (w : World) (s : Slot) (a : Argument) : Bool :=
  match w.object? a.name with
  | some e => s.accepts e.typeName
  | none => false

/-- Whether arguments fit a signature, in number and one by one. -/
def argumentsFit (w : World) (s : Signature) (as : List Argument) : Bool :=
  s.arity == as.length && (s.slots.zip as).all fun p => w.fits p.1 p.2

/-- Whether a literal fits the signature of its predicate. -/
def validLiteral (w : World) (l : Literal) : Bool :=
  match w.domain.predicate? l.name with
  | some s => w.argumentsFit s l.args
  | none => false

/-- Whether a fluent fits the signature of its function. -/
def validFluent (w : World) (f : Fluent) : Bool :=
  match w.domain.function? f.name with
  | some s => w.argumentsFit s f.args
  | none => false

/-! ## Formulas -/

mutual

/-- **Validity of a term.** -/
def validTerm (w : World) : Term → Bool
  | .node k cs =>
    match k with
    | .and | .or | .oneOf | .expression _ | .update _ => validTerms w cs
    | .not | .unknown => cs.length == 1 && validTerms w cs
    | .predicate l => w.validLiteral l
    | .function f => w.validFluent f
    | .number _ => true

/-- Validity of several terms. -/
def validTerms (w : World) : List Term → Bool
  | [] => true
  | t :: ts => validTerm w t && validTerms w ts

end

/-- Validity of what stands below a node; false if there is no such node. -/
def validAt (w : World) (f : Formula) (id : Nat) : Bool :=
  match f.unfold id with
  | some t => w.validTerm t
  | none => false

/-- **Validity of a formula.** The empty one is valid. -/
def validFormula (w : World) (f : Formula) : Bool :=
  f.isEmpty || w.validAt f 0

end World

/-! ## Shapes of contingent facts -/

/-- How many children the head of a contingent fact may have; nothing for a tag
that cannot head one. -/
def contingentArity? : NodeTag → Option (Nat → Bool)
  | .unknown => some (· == 1)
  | .oneOf => some (· != 0)
  | .or => some (· == 2)
  | _ => none

/-- Whether a child is a PREDICATE node. -/
def isPredicateNode (f : Formula) (id : Nat) : Bool :=
  match f.node? id with
  | some n => n.kind.tag == .predicate
  | none => false

/-- **What keeps a formula from being a contingent fact**: an UNKNOWN over one
predicate, a ONE_OF over at least one, or an OR over two. -/
def shapeFault? (f : Formula) : Option String :=
  match f.root? with
  | none => some "empty tree"
  | some n =>
    let label := n.kind.tag.label
    match contingentArity? n.kind.tag with
    | none => some s!"{label} cannot head a conditional"
    | some arityOk =>
      if !arityOk n.children.length then some s!"{label} with {n.children.length} children"
      else if !n.children.all (isPredicateNode f) then
        some s!"{label} children must be predicates"
      else none

end WorldModel
