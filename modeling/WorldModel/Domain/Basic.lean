/-
Planning domains: which types, predicates, functions and constants a world may
talk about.

Types form a hierarchy below the root type `object`, given by a parent for every
other type. All names are trimmed and lower-cased on the way in, and looked up in
the same way, so a domain answers for every spelling of its symbols; its own
spelling is the one in `Signature.name`. A signature position is a `Slot`: a type
together with all types below it.

`Domain.ofDescription` checks a description: parents and parameter types must be
declared, and no type may be its own ancestor. Names are taken in the order of the
description's tables, so that of two spellings of one name the later one counts.
-/
import WorldModel.Domain.Description
import WorldModel.Text.Blank
import WorldModel.Text.Lower

set_option autoImplicit false

namespace WorldModel

/-! ## Objects and signatures -/

/-- A named object of a type. -/
structure Entity where
  name : String
  typeName : String
deriving DecidableEq, Inhabited

/-- An object as it is listed, `name - type`. -/
def Entity.text (e : Entity) : String :=
  e.name ++ " - " ++ e.typeName

/-- One position of a signature: its type and the types below that. -/
structure Slot where
  typeName : String
  subTypes : List String
deriving DecidableEq, Inhabited

/-- Whether an object of the given type may stand in the position. -/
def Slot.accepts (s : Slot) (typeName : String) : Bool :=
  s.typeName == typeName || s.subTypes.contains typeName

/-- The declared name of a predicate or function, and its positions. -/
structure Signature where
  name : String
  slots : List Slot
deriving DecidableEq, Inhabited

/-- The number of positions. -/
def Signature.arity (s : Signature) : Nat :=
  s.slots.length

/-! ## Type hierarchies -/

/-- A parent for every type but the root, which has none. -/
abbrev Hierarchy :=
  Table (Option String)

namespace Hierarchy

/-- The type above all others. -/
def rootType : String :=
  "object"

/-- The parent of a type; none for the root and for what is no type. -/
def parent? (h : Hierarchy) (type : String) : Option String :=
  (h.find? type).join

/-- The types above `type`, nearest first, at most `depth` of them. -/
def ancestorsWithin (h : Hierarchy) : (depth : Nat) → (type : String) → List String
  | 0, _ => []
  | depth + 1, type =>
    match h.parent? type with
    | none => []
    | some p => p :: h.ancestorsWithin depth p

/-- The types above `type`, nearest first. Without a cycle there are fewer than
there are types. -/
def ancestors (h : Hierarchy) (type : String) : List String :=
  h.ancestorsWithin h.length type

/-- Whether the way up from `type` ends within `steps` steps. -/
def endsWithin (h : Hierarchy) : (steps : Nat) → (type : String) → Bool
  | 0, _ => false
  | steps + 1, type =>
    match h.parent? type with
    | none => true
    | some p => h.endsWithin steps p

/-- The types strictly below `type`, in the order of their names. -/
def subtypes (h : Hierarchy) (type : String) : List String :=
  (h.keys).filter fun t => t != type && (h.ancestors t).contains type

end Hierarchy

/-! ## Domains -/

/-- What is wrong with a description. -/
inductive DomainError where
  | unknownParent (typeName parent : String)
  | typeCycle (typeName : String)
  | unknownType (symbol typeName : String)
deriving DecidableEq

/-- The message of an error. -/
def DomainError.message : DomainError → String
  | unknownParent t p => s!"type \"{t}\" declares unknown parent \"{p}\""
  | typeCycle t => s!"type hierarchy contains a cycle through \"{t}\""
  | unknownType symbol t => s!"{symbol} uses undeclared type \"{t}\""

/-- A checked domain. -/
structure Domain where
  name : String
  requirements : List String
  hierarchy : Hierarchy
  predicates : Table (List String)
  functions : Table (List String)
  constants : List Entity
deriving Inhabited

/-- The spelling under which a domain knows a name. -/
def fold (s : String) : String :=
  Text.lower (Text.trim s)

namespace Domain

/-! ## Checking a description -/

/-- The hierarchy of a table of types; an entry for the root type is ignored. -/
def hierarchyOf (types : Table String) : Hierarchy :=
  types.foldl
    (fun h p =>
      if fold p.1 = Hierarchy.rootType then h else Table.insert (fold p.1) (some (fold p.2)) h)
    [(Hierarchy.rootType, none)]

/-- The first type whose parent is not declared. -/
def orphan? (h : Hierarchy) : Option DomainError :=
  h.findSome? fun p =>
    match p.2 with
    | some parent => if h.hasKey parent then none else some (.unknownParent p.1 parent)
    | none => none

/-- The first type from which the way up never ends. -/
def cyclic? (h : Hierarchy) : Option DomainError :=
  (h.keys.find? fun t => !h.endsWithin h.length t).map .typeCycle

/-- The symbols of a table with the types of their parameters, in folded names. -/
def symbolsOf (h : Hierarchy) (kind : String) (table : Table (List String)) :
    Except DomainError (Table (List String)) :=
  table.foldlM
    (fun out p =>
      let types := p.2.map fold
      match types.find? fun t => !h.hasKey t with
      | some t => .error (.unknownType (kind ++ " " ++ p.1) t)
      | none => .ok (Table.insert (fold p.1) types out))
    []

/-- The constants of a table, type by type. -/
def constantsOf (h : Hierarchy) (table : Table (List String)) :
    Except DomainError (List Entity) :=
  table.foldlM
    (fun out p =>
      if h.hasKey (fold p.1) then .ok (out ++ p.2.map fun n => ⟨fold n, fold p.1⟩)
      else .error (.unknownType ("constants " ++ " ".intercalate p.2) (fold p.1)))
    []

/-- **The domain of a description**, or the first error in it. -/
def ofDescription (d : Description) : Except DomainError Domain := do
  let h := hierarchyOf d.types
  if let some e := orphan? h then throw e
  if let some e := cyclic? h then throw e
  let predicates ← symbolsOf h "predicate" d.predicates
  let functions ← symbolsOf h "function" d.functions
  let constants ← constantsOf h d.constants
  return ⟨fold d.name, d.requirements.map fold, h, predicates, functions, constants⟩

/-! ## Questions -/

/-- All types in the order of their names. -/
def types (d : Domain) : List String :=
  d.hierarchy.keys

/-- Whether the domain has a type of exactly this name. -/
def declares (d : Domain) (typeName : String) : Bool :=
  d.hierarchy.hasKey typeName

/-- The types strictly below a type. -/
def subtypes (d : Domain) (typeName : String) : List String :=
  d.hierarchy.subtypes typeName

/-- A signature from a declared name and its parameter types. -/
def signature (d : Domain) (name : String) (types : List String) : Signature :=
  ⟨name, types.map fun t => ⟨t, d.subtypes t⟩⟩

/-- The signature of a predicate, under any spelling. -/
def predicate? (d : Domain) (name : String) : Option Signature :=
  (d.predicates.find? (fold name)).map (d.signature (fold name))

/-- The signature of a function, under any spelling. -/
def function? (d : Domain) (name : String) : Option Signature :=
  (d.functions.find? (fold name)).map (d.signature (fold name))

/-- Whether the domain goes by this name, under any spelling. -/
def answersTo (d : Domain) (name : String) : Bool :=
  fold name == d.name

/-- Whether an object is a constant of the domain, of the same type. -/
def isConstant (d : Domain) (e : Entity) : Bool :=
  d.constants.contains e

/-- A predicate's name in the domain's spelling, if it is declared. -/
def spellPredicate (d : Domain) (name : String) : String :=
  match d.predicate? name with
  | some s => s.name
  | none => name

/-- A function's name in the domain's spelling, if it is declared. -/
def spellFunction (d : Domain) (name : String) : String :=
  match d.function? name with
  | some s => s.name
  | none => name

/-! ## Text -/

/-- Parameters `?p0`, `?p1`, … with their types, numbered from `index` on. -/
def parameterText (index : Nat) : List String → String
  | [] => ""
  | t :: ts => s!" ?p{index} - {t}" ++ parameterText (index + 1) ts

/-- A declared symbol with its parameters, on a line of its own. -/
def symbolLine (p : String × List String) : String :=
  "    (" ++ p.1 ++ parameterText 0 p.2 ++ ")\n"

/-- A section `(:title …)` with the given lines inside. -/
def sectionText (title : String) (lines : List String) : String :=
  "  (:" ++ title ++ "\n" ++ String.join lines ++ "  )\n"

/-- A section that is left out when it is empty. -/
def optionalSection (title : String) (lines : List String) : String :=
  if lines.isEmpty then "" else sectionText title lines

/-- The line of a type that has a parent. -/
def typeLine? (p : String × Option String) : Option String :=
  p.2.map fun parent => "    " ++ p.1 ++ " - " ++ parent ++ "\n"

/-- **The domain as text**: requirements, types, constants, predicates and
functions. -/
def text (d : Domain) : String :=
  let requirements := " ".intercalate (d.requirements.map (":" ++ ·))
  "(define (domain " ++ d.name ++ ")\n" ++
    (if d.requirements.isEmpty then "" else "  (:requirements " ++ requirements ++ ")\n") ++
    sectionText "types" (d.hierarchy.filterMap typeLine?) ++
    optionalSection "constants" (d.constants.map fun e => "    " ++ e.text ++ "\n") ++
    sectionText "predicates" (d.predicates.map symbolLine) ++
    optionalSection "functions" (d.functions.map symbolLine) ++ ")\n"

end Domain

end WorldModel
