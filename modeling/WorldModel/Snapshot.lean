/-
Worlds, formulas and atoms as JSON.

A formula is exported twice, as text for people and as records for programs. Fields
come in a fixed order, and a record lists every field of the exchange shape, the two
operator fields only where they are set. How numbers are written is left to the
caller, since the same shapes are used with numbers and with their texts.
-/
import WorldModel.Json
import WorldModel.World.Basic

set_option autoImplicit false

namespace WorldModel

/-! ## Atoms -/

/-- An argument. -/
def Argument.toJson (a : Argument) : Json :=
  .object [("name", .string a.name), ("type", .string a.typeName),
    ("sub_types", .strings a.subTypes)]

/-- Some arguments. -/
def argumentsJson (as : List Argument) : Json :=
  .array (as.map Argument.toJson)

/-- A literal. -/
def Literal.toJson (l : Literal) : Json :=
  .object [("name", .string l.name), ("params", argumentsJson l.args),
    ("negate", .bool l.negated)]

/-- A fluent. -/
def Fluent.toJson (number : Float → Json) (f : Fluent) : Json :=
  .object [("name", .string f.name), ("params", argumentsJson f.args),
    ("value", number f.value)]

/-- An object. -/
def Entity.toJson (e : Entity) : Json :=
  .object [("name", .string e.name), ("type", .string e.typeName)]

/-! ## Formulas -/

/-- A record. -/
def Record.toJson (number : Float → Json) (r : Record) : Json :=
  .object <|
    [("node_type", .string r.tag.label), ("node_id", .nat r.id),
      ("children", .array (r.children.map Json.nat)), ("name", .string r.name),
      ("parameters", argumentsJson r.args), ("negate", .bool r.negated),
      ("value", number r.value)] ++
    r.operator.toList.map (fun op => ("expression", Json.string op.label)) ++
    r.update.toList.map (fun op => ("modifier", Json.string op.keyword))

/-- The records of a formula. -/
def Formula.recordsJson (number : Float → Json) (f : Formula) : Json :=
  .array (f.toRecords.map (Record.toJson number))

/-- A formula: its head, its text and its records. -/
def Formula.toJson (number : Float → Json) (f : Formula) : Json :=
  .object [("head", .optional (fun t => .string t.label) f.rootTag?), ("text", .string f.text),
    ("nodes", f.recordsJson number)]

/-! ## Worlds -/

/-- **A snapshot of a world.** -/
def World.toJson (w : World) : Json :=
  .object [("domain", .string w.domain.name),
    ("instances", .array (w.objects.map Entity.toJson)),
    ("predicates", .array (w.facts.map Literal.toJson)),
    ("functions", .array (w.fluents.map (Fluent.toJson .float))),
    ("conditionals", .array (w.contingents.map (Formula.toJson .float))),
    ("goal", w.goal.toJson .float)]

end WorldModel
