/-
Descriptions of a planning domain, before anything about them has been checked.

A description names types with their parents, predicates and functions with the
types of their parameters, and constants by type. Tables are ordered by name.
`WorldModel.Domain.Basic` turns a description into a domain or says what is wrong
with it.
-/
import WorldModel.Table

set_option autoImplicit false

namespace WorldModel

/-- An unchecked description of a domain. -/
structure Description where
  name : String
  requirements : List String
  /-- A type and its parent. -/
  types : Table String
  /-- A predicate and the types of its parameters. -/
  predicates : Table (List String)
  /-- A function and the types of its parameters. -/
  functions : Table (List String)
  /-- A type and the names of its constants. -/
  constants : Table (List String)
deriving Inhabited

namespace Description

/-- A description that holds a name only. -/
def named (name : String) : Description :=
  ⟨name, [], [], [], [], []⟩

/-- Declares a type under a parent. -/
def withType (d : Description) (name parent : String) : Description :=
  { d with types := d.types.insert name parent }

/-- Declares a predicate. -/
def withPredicate (d : Description) (name : String) (types : List String) : Description :=
  { d with predicates := d.predicates.insert name types }

/-- Declares a function. -/
def withFunction (d : Description) (name : String) (types : List String) : Description :=
  { d with functions := d.functions.insert name types }

/-- Declares a constant behind those already declared for its type. -/
def withConstant (d : Description) (name typeName : String) : Description :=
  { d with
    constants := d.constants.insert typeName ((d.constants.find? typeName).getD [] ++ [name]) }

end Description

end WorldModel
