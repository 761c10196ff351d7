/-
Ground atoms: the literals and fluents a planning world is described with.

A literal says of some named objects that they stand in a relation, or that they
do not; a fluent gives a number to them. Both name their objects by argument. An
argument may carry the type it was declared with, but identity never looks at it:
two atoms are the same when their names and the names of their arguments agree.
Three relations follow from this, and the rest of the library compares atoms
through them only.

* `Literal.sameAtom`: same name and arguments, polarity ignored.
* `Literal.sameFact`: the same atom with the same polarity.
* `Fluent.sameKey`: same name and arguments, value ignored.
-/

set_option autoImplicit false

namespace WorldModel

/-! ## Arguments -/

/-- One argument of an atom: the object it names, its type if one is known, and
the subtypes listed with it. -/
structure Argument where
  name : String
  typeName : String
  subTypes : List String
deriving DecidableEq, Inhabited

/-- An argument of unknown type. -/
def Argument.untyped (name : String) : Argument :=
  ⟨name, "", []⟩

/-- An argument of a known type. -/
def Argument.typed (name typeName : String) : Argument :=
  ⟨name, typeName, []⟩

/-- Whether two argument lists name the same objects in the same order. -/
def sameArguments (as bs : List Argument) : Bool :=
  as.map (·.name) == bs.map (·.name)

/-- Whether some argument names the object. -/
def argumentsMention (as : List Argument) (object : String) : Bool :=
  as.any (·.name == object)

/-! ## Literals -/

/-- A ground atom or its negation. -/
structure Literal where
  name : String
  args : List Argument
  negated : Bool
deriving DecidableEq, Inhabited

namespace Literal

/-- A positive literal over untyped arguments. -/
def positive (name : String) (args : List String) : Literal :=
  ⟨name, args.map Argument.untyped, false⟩

/-- The opposite literal. -/
def negate (l : Literal) : Literal :=
  { l with negated := !l.negated }

/-- Same name and arguments, polarity ignored. -/
def sameAtom (l m : Literal) : Bool :=
  l.name == m.name && sameArguments l.args m.args

/-- Same atom with the same polarity. -/
def sameFact (l m : Literal) : Bool :=
  l.negated == m.negated && l.sameAtom m

/-- Two literals state the same fact when polarity, name and the names of the
arguments agree. -/
theorem sameFact_iff {l m : Literal} :
    l.sameFact m = true ↔
      l.negated = m.negated ∧ l.name = m.name ∧ l.args.map (·.name) = m.args.map (·.name) := by
  simp [sameFact, sameAtom, sameArguments]

/-- Whether some argument names the object. -/
def mentions (l : Literal) (object : String) : Bool :=
  argumentsMention l.args object

end Literal

/-! ## Fluents -/

/-- A ground numeric term with its value. -/
structure Fluent where
  name : String
  args : List Argument
  value : Float
deriving BEq, Inhabited

namespace Fluent

/-- A fluent over untyped arguments. -/
def ground (name : String) (args : List String) (value : Float) : Fluent :=
  ⟨name, args.map Argument.untyped, value⟩

/-- Same name and arguments, value ignored. -/
def sameKey (f g : Fluent) : Bool :=
  f.name == g.name && sameArguments f.args g.args

/-- Two fluents have the same key when name and the names of the arguments agree. -/
theorem sameKey_iff {f g : Fluent} :
    f.sameKey g = true ↔ f.name = g.name ∧ f.args.map (·.name) = g.args.map (·.name) := by
  simp [sameKey, sameArguments]

/-- Whether some argument names the object. -/
def mentions (f : Fluent) (object : String) : Bool :=
  argumentsMention f.args object

end Fluent

end WorldModel
