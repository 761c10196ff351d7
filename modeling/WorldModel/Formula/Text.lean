/-
Formulas as text: the one-line form in which they are stored in problem files and
quoted in messages, and an indented form with one node a line.

Atoms are written `(name argument …)`, a negated literal inside `(not …)`, a
fluent without its value unless it is assigned, numbers by `Number.write`, and
every other node by its keyword with its children behind it. The names of
relations, fluents and types may be lower-cased on the way; the names of objects
never are.
-/
import WorldModel.Formula.Query
import WorldModel.Number.Decimal
import WorldModel.Text.Lower

set_option autoImplicit false

namespace WorldModel

/-! ## Casing -/

/-- What happens to the names of relations, fluents and types when written. -/
inductive Casing where
  | lower
  | asStored
deriving DecidableEq, Inhabited

/-- A name as it is written. -/
def Casing.apply : Casing → String → String
  | lower, s => Text.lower s
  | asStored, s => s

/-! ## Atoms -/

/-- `(name argument …)`. -/
def atomText (casing : Casing) (name : String) (args : List Argument) : String :=
  "(" ++ casing.apply name ++ String.join (args.map fun a => " " ++ a.name) ++ ")"

/-- A literal, inside `(not …)` if negated. -/
def Literal.text (l : Literal) (casing : Casing) : String :=
  if l.negated then "(not " ++ atomText casing l.name l.args ++ ")"
  else atomText casing l.name l.args

/-- A fluent without its value. -/
def Fluent.termText (f : Fluent) (casing : Casing) : String :=
  atomText casing f.name f.args

/-- A fluent with its value, `(= (name argument …) value)`. -/
def Fluent.text (f : Fluent) (casing : Casing) : String :=
  "(= " ++ f.termText casing ++ " " ++ Number.write f.value ++ ")"

/-- A node that is a leaf of the notation: an atom or a number. -/
def NodeKind.leafText (casing : Casing) : NodeKind → String
  | .predicate l => l.text casing
  | .function f => f.termText casing
  | .number x => Number.write x
  | _ => ""

/-! ## Terms -/

namespace Term

mutual

/-- **The one-line form.** What stands below an atom or a number is not written. -/
def text (casing : Casing) : Term → String
  | node k cs =>
    match k.keyword? with
    | none => k.leafText casing
    | some word => "(" ++ word ++ textAll casing cs ++ ")"

/-- The one-line forms of several terms, each with a space before it. -/
def textAll (casing : Casing) : List Term → String
  | [] => ""
  | t :: ts => " " ++ text casing t ++ textAll casing ts

end

/-- Two spaces for every level. -/
def indentation (depth : Nat) : String :=
  String.ofList (List.replicate (2 * depth) ' ')

mutual

/-- **The indented form**, one node a line. -/
def pretty (depth : Nat) : Term → String
  | node k cs =>
    match k.keyword?, cs with
    | none, _ => indentation depth ++ k.leafText .asStored ++ "\n"
    | some word, [] => indentation depth ++ "(" ++ word ++ ")\n"
    | some word, c :: ds =>
      indentation depth ++ "(" ++ word ++ "\n" ++ pretty (depth + 1) c ++
        prettyAll (depth + 1) ds ++ indentation depth ++ ")\n"

/-- The indented forms of several terms. -/
def prettyAll (depth : Nat) : List Term → String
  | [] => ""
  | t :: ts => pretty depth t ++ prettyAll depth ts

end

end Term

/-! ## Formulas -/

namespace Formula

/-- The one-line form of what stands below a node; nothing if there is no such
node. -/
def render (f : Formula) (id : Nat) (casing : Casing) : String :=
  match f.unfold id with
  | some t => t.text casing
  | none => ""

/-- The one-line form with all names as stored. -/
def text (f : Formula) : String :=
  f.render 0 .asStored

/-- The indented form. -/
def pretty (f : Formula) : String :=
  match f.term? with
  | some t => t.pretty 0
  | none => ""

end Formula

end WorldModel
