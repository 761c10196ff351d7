/-
Reading problems in the parenthesised form
`(define (problem p) (:domain d) (:objects …) (:init …) (:goal …))`.

Expressions are read by their place: inside a logical form `(name argument …)` is
a literal, inside a numeric form it is a fluent. In the initial state `(not …)` is
a negated literal, and so is it in a disjunction or a one-of there; in a goal it
is a connective over any expression. Arguments get the type of the object they
name when the reader knows it; variables are refused.
-/
import WorldModel.Problem.Basic
import WorldModel.Number.Decimal

set_option autoImplicit false

namespace WorldModel

namespace Reader

/-- The result of reading something. -/
abbrev Result (α : Type) :=
  Except ProblemError α

/-- A fault in an expression. -/
def faulty {α : Type} (fault : FormFault) (sx : SExpr) : Result α :=
  .error (.form fault sx.text sx.span.start)

/-- The fault of an expression that is not a list with a word at its head. -/
def notHeaded {α : Type} (sx : SExpr) : Result α :=
  match sx with
  | .atom _ _ => faulty .notForm sx
  | .list [] _ => faulty .emptyForm sx
  | .list _ _ => faulty .noHead sx

/-- The head of a form and what follows it. -/
def headed (sx : SExpr) : Result (String × List SExpr) :=
  match sx with
  | .list (.atom head _ :: rest) _ => .ok (head, rest)
  | _ => notHeaded sx

/-! ## Atoms -/

/-- The types of the objects a reader knows. -/
abbrev TypeOf :=
  String → Option String

/-- No types at all. -/
def untyped : TypeOf :=
  fun _ => none

/-- The name of an object as an argument. -/
def argument (typeOf : TypeOf) (sx : SExpr) : Result Argument :=
  match sx with
  | .list _ _ => faulty .notObject sx
  | .atom name _ =>
    if name.toList.head? = some '?' then .error (.unsupported ("variable " ++ name))
    else
      match typeOf name with
      | some t => .ok (.typed name t)
      | none => .ok (.untyped name)

/-- `(name argument …)` or `(not …)` around a literal. -/
def literal (typeOf : TypeOf) : SExpr → Result Literal
  | .list (.atom head at' :: args) span =>
    if head = "not" then
      match args with
      | [inner] => (literal typeOf inner).map Literal.negate
      | _ => faulty .negatesAtoms (.list (.atom head at' :: args) span)
    else (args.mapM (argument typeOf)).map fun as => ⟨head, as, false⟩
  | sx => notHeaded sx

/-- `(name argument …)` as a fluent of value 0. -/
def fluentTerm (typeOf : TypeOf) (sx : SExpr) : Result Fluent := do
  let (head, args) ← headed sx
  return ⟨head, ← args.mapM (argument typeOf), 0⟩

/-- A number. -/
def number (sx : SExpr) : Result Float :=
  match sx.atom?.bind Number.read? with
  | some x => .ok x
  | none => faulty .notNumber sx

/-- `(= (name argument …) value)`. -/
def assignment (typeOf : TypeOf) (sx : SExpr) : Result Fluent := do
  match ← headed sx with
  | ("=", [term, value]) =>
    let f ← fluentTerm typeOf term
    return { f with value := ← number value }
  | _ => faulty .notAssignment sx

/-! ## Expressions -/

/-- A node over an atom or a number. -/
def leaf (k : NodeKind) : Term :=
  .node k []

/-- A numeric expression: a number, a fluent, or an arithmetic operator over two of
them, the minus also over one. -/
def numeric (typeOf : TypeOf) : SExpr → Result Term
  | .atom t span => (number (.atom t span)).map fun x => leaf (.number x)
  | .list (.atom head at' :: args) span =>
    match (Operator.ofSymbol? head).filter (!·.isComparison) with
    | some op =>
      match args with
      | [only] =>
        if op = .sub then (numeric typeOf only).map fun t => .node (.expression op) [t]
        else faulty .combines (.list (.atom head at' :: args) span)
      | [left, right] => do
        let l ← numeric typeOf left
        let r ← numeric typeOf right
        return .node (.expression op) [l, r]
      | _ => faulty .combines (.list (.atom head at' :: args) span)
    | none =>
      (fluentTerm typeOf (.list (.atom head at' :: args) span)).map fun f => leaf (.function f)
  | sx => notHeaded sx

/-- The heads that are understood and refused. -/
def refusedHeads : List String :=
  ["imply", "exists", "forall", "when", "preference", "either"]

/-- A one-of over literals. -/
def oneOf (typeOf : TypeOf) (args : List SExpr) : Result Term :=
  (args.mapM (literal typeOf)).map fun ls => .node .oneOf (ls.map fun l => leaf (.predicate l))

/-- A form whose head is no connective: a comparison, an update or a literal. -/
def plainForm (typeOf : TypeOf) (sx : SExpr) (head : String) (args : List SExpr) :
    Result Term :=
  match (Operator.ofSymbol? head).filter (·.isComparison), UpdateOp.ofKeyword? head with
  | some op, _ =>
    match args with
    | [left, right] => do
      let l ← numeric typeOf left
      let r ← numeric typeOf right
      return .node (.expression op) [l, r]
    | _ => faulty .compares sx
  | none, some op =>
    match args with
    | [target, amount] => do
      let f ← fluentTerm typeOf target
      let a ← numeric typeOf amount
      return .node (.update op) [leaf (.function f), a]
    | _ => faulty .updates sx
  | none, none => (literal typeOf sx).map fun l => leaf (.predicate l)

mutual

/-- **A logical expression.** -/
def logical (typeOf : TypeOf) : SExpr → Result Term
  | .list (.atom head at' :: args) span =>
    let sx := SExpr.list (.atom head at' :: args) span
    if head = "and" then (logicalAll typeOf args).map (.node .and)
    else if head = "or" then (logicalAll typeOf args).map (.node .or)
    else if head = "not" then
      match args with
      | [inner] => (logical typeOf inner).map fun t => .node .not [t]
      | _ => faulty .negatesExpressions sx
    else if head = "unknown" then
      match args with
      | [inner] => (literal typeOf inner).map fun l => .node .unknown [leaf (.predicate l)]
      | _ => faulty .wraps sx
    else if head = "oneof" then oneOf typeOf args
    else if refusedHeads.contains head then .error (.unsupported head)
    else plainForm typeOf sx head args
  | sx => notHeaded sx

/-- Several logical expressions. -/
def logicalAll (typeOf : TypeOf) : List SExpr → Result (List Term)
  | [] => .ok []
  | sx :: sxs => do
    let t ← logical typeOf sx
    let ts ← logicalAll typeOf sxs
    return t :: ts

end

/-! ## Texts of one expression -/

/-- The only expression of a text. -/
def single (s : String) : Result SExpr :=
  match SExpr.parse s with
  | .error e => .error (.parens e)
  | .ok [sx] => .ok sx
  | .ok sxs => .error (.expressionCount sxs.length)

/-- A fluent term or an assignment. -/
def fluent (sx : SExpr) : Result Fluent :=
  if sx.head? = some "=" then assignment untyped sx else fluentTerm untyped sx

/-- What could not be read as an atom, and why. -/
def asAtom {α : Type} (input : String) : Result α → Except FormulaError α
  | .ok a => .ok a
  | .error e => .error (.badAtom input e.message)

/-! ## Object lists -/

/-- The names and types of an object list, after the names `pending` that wait for a
type. A dash takes the item behind it as the type of all names before it; names
without one are of the root type. -/
def typedList (pending : List String) : List SExpr → Result (List (String × String))
  | [] => .ok (pending.map fun n => (n, Hierarchy.rootType))
  | .list items span :: _ => faulty .amongObjects (.list items span)
  | .atom word _ :: rest =>
    if word = "-" then
      match rest with
      | .atom type _ :: rest' =>
        (typedList [] rest').map fun later => pending.map (fun n => (n, type)) ++ later
      | _ => .error .untypedDash
    else typedList (pending ++ [word]) rest

/-! ## Problems -/

/-- The sections of the first `define` form. -/
def sections (forms : List SExpr) : Result (List SExpr) :=
  match forms.find? (·.head? = some "define") with
  | some (.list (_ :: rest) _) => .ok rest
  | _ => .error .noDefinition

/-- What follows the head of the first section of that head. -/
def sectionItems? (ss : List SExpr) (head : String) : Option (List SExpr) :=
  ((ss.find? (·.head? = some head)).bind SExpr.list?).map List.tail

/-- The one word that a section holds. -/
def sectionName? (ss : List SExpr) (head : String) : Option String :=
  match sectionItems? ss head with
  | some [sx] => sx.atom?
  | _ => none

/-- The heads of the sections that may occur; the last two are passed over. -/
def knownSections : List String :=
  ["problem", ":domain", ":objects", ":init", ":goal", ":requirements", ":metric"]

/-- The first section of another head. -/
def unknownSection? (ss : List SExpr) : Option SExpr :=
  ss.find? fun s =>
    match s.head? with
    | some head => !knownSections.contains head
    | none => true

/-- An item of the initial state: certain, or contingent. -/
inductive InitItem where
  | certain (t : Term)
  | contingent (t : Term)

/-- Reads an item of the initial state. -/
def initItem (typeOf : TypeOf) (sx : SExpr) : Result InitItem := do
  let (head, args) ← headed sx
  if head = "=" then
    return .certain (leaf (.function (← assignment typeOf sx)))
  else if head = "unknown" ∨ head = "oneof" then
    return .contingent (← logical typeOf sx)
  else if head = "or" then
    let ls ← args.mapM (literal typeOf)
    return .contingent (.node .or (ls.map fun l => leaf (.predicate l)))
  else
    return .certain (leaf (.predicate (← literal typeOf sx)))

/-- The formula of a certain item. -/
def InitItem.certain? : InitItem → Option Formula
  | .certain t => some (.ofTerm t)
  | .contingent _ => none

/-- The formula of a contingent item. -/
def InitItem.contingent? : InitItem → Option Formula
  | .certain _ => none
  | .contingent t => some (.ofTerm t)

/-- The type of a name among objects, the last one of that name counting. -/
def typeAmong (es : List Entity) : TypeOf :=
  fun name => (es.reverse.find? (·.name == name)).map (·.typeName)

/-- The goal of a problem, if it has a goal section. -/
def goal (typeOf : TypeOf) : Option (List SExpr) → Result (Option Formula)
  | none => .ok none
  | some [sx] => (logical typeOf sx).map fun t => some (.ofTerm t)
  | some _ => .error .goalCount

/-- The name in the problem section; a list in its place leaves the name empty. -/
def problemName (ss : List SExpr) : Result String :=
  match sectionItems? ss "problem" with
  | some [sx] => .ok (sx.atom?.getD "")
  | _ => .error .noHeader

/-- **A problem from its text**, with the constants of the domain known by type. -/
def problem (s : String) (d : Domain) : Result Problem := do
  let forms ← (SExpr.parse s).mapError .parens
  let ss ← sections forms
  let name ← problemName ss
  if (sectionName? ss ":domain").isNone then throw .missingDomain
  if let some sx := unknownSection? ss then throw (.unknownSection sx.text)
  let pairs ← typedList [] ((sectionItems? ss ":objects").getD [])
  let objects : List Entity := pairs.map fun p => ⟨p.1, p.2⟩
  let typeOf := typeAmong (d.constants ++ objects)
  let items ← ((sectionItems? ss ":init").getD []).mapM (initItem typeOf)
  let goal ← goal typeOf (sectionItems? ss ":goal")
  return ⟨name, objects, items.filterMap InitItem.certain?,
    items.filterMap InitItem.contingent?, goal⟩

/-- The domain that a text names, if it can be made out. -/
def domainName (s : String) : Option String :=
  match SExpr.parse s with
  | .error _ => none
  | .ok forms =>
    match sections forms with
    | .error _ => none
    | .ok ss => sectionName? ss ":domain"

end Reader

/-! ## What the reader offers -/

/-- The grammar of the parenthesised form. -/
def Grammar.standard : Grammar :=
  ⟨Reader.domainName, Reader.problem⟩

/-- A literal from its text. -/
def Literal.parse (s : String) : Except FormulaError Literal :=
  Reader.asAtom s (Reader.single s >>= Reader.literal Reader.untyped)

/-- A fluent from its text; without a value it is 0. -/
def Fluent.parse (s : String) : Except FormulaError Fluent :=
  Reader.asAtom s (Reader.single s >>= Reader.fluent)

/-- A logical expression from its text. -/
def Formula.parse (s : String) : Except ProblemError Formula := do
  let sx ← Reader.single s
  return .ofTerm (← Reader.logical Reader.untyped sx)

end WorldModel
