/-
A planning world: the objects, facts, fluents and contingent facts of one problem,
and its goal, over a fixed domain.

The world is only ever changed by the operations of the modules beside this one.
Each of them answers with an `Outcome`, the world as it is afterwards together with
the refusal if the operation was refused. Names of predicates and functions are
brought into the domain's spelling before they are compared or stored; the
functions that do so, and the questions that need nothing else, are here.
-/
import WorldModel.Formula.Text
import WorldModel.Problem.Reader
import WorldModel.Text.Quoted

set_option autoImplicit false

namespace WorldModel

/-! ## Worlds -/

/-- A planning world. -/
structure World where
  domain : Domain
  objects : List Entity
  facts : List Literal
  fluents : List Fluent
  /-- Facts headed by UNKNOWN, ONE_OF or OR. -/
  contingents : List Formula
  /-- The goal; the empty formula if none is set. -/
  goal : Formula
deriving Inhabited

/-! ## Refusals -/

/-- Why an operation was refused. -/
inductive Refusal where
  | unknownType (typeName : String)
  | objectConflict (name existing requested : String)
  | invalidLiteral (text : String)
  | invalidFluent (text : String)
  | fluentNotFound (term : String)
  | invalidFormula (text : String)
  | malformedContingent (text reason : String)
  | duplicateContingent (text : String)
deriving DecidableEq

/-- The message of a refusal. -/
def Refusal.message : Refusal → String
  | unknownType t => s!"unknown type \"{t}\""
  | objectConflict n e r => s!"instance \"{n}\" already exists with type \"{e}\", not \"{r}\""
  | invalidLiteral t => s!"predicate {t} does not match the domain signature"
  | invalidFluent t => s!"function {t} does not match the domain signature"
  | fluentNotFound t => s!"function {t} is not in the knowledge base"
  | invalidFormula t => s!"expression {t} failed type validation"
  | malformedContingent t r => s!"malformed conditional {t}: {r}"
  | duplicateContingent t => s!"conditional {t} is already stored"

/-- What an operation leaves behind: the world after it, and the refusal if it was
refused. -/
structure Outcome where
  world : World
  refusal : Option Refusal
deriving Inhabited

namespace World

/-- The operation was carried out and left this world. -/
def accepted (w : World) : Outcome :=
  ⟨w, none⟩

/-- The operation was refused and left this world. -/
def refused (w : World) (r : Refusal) : Outcome :=
  ⟨w, some r⟩

/-- A world without anything in it. -/
def empty (d : Domain) : World :=
  ⟨d, [], [], [], [], .empty⟩

/-! ## The domain's spelling -/

/-- A literal in the domain's spelling. -/
def spellLiteral (w : World) (l : Literal) : Literal :=
  { l with name := w.domain.spellPredicate l.name }

/-- A fluent in the domain's spelling. -/
def spellFluent (w : World) (f : Fluent) : Fluent :=
  { f with name := w.domain.spellFunction f.name }

/-- A formula with all its atoms in the domain's spelling. -/
def spellFormula (w : World) (f : Formula) : Formula :=
  f.renameAtoms w.domain.spellPredicate w.domain.spellFunction

/-! ## Questions -/

/-- The object of a name. -/
def object? (w : World) (name : String) : Option Entity :=
  w.objects.find? (·.name == name)

/-- Whether a literal is stored, under any spelling. -/
def hasFact (w : World) (l : Literal) : Bool :=
  w.facts.any (·.sameFact (w.spellLiteral l))

/-- Whether a fluent is stored, under any spelling. -/
def hasFluent (w : World) (f : Fluent) : Bool :=
  w.fluents.any (·.sameKey (w.spellFluent f))

/-- Whether a contingent fact is stored, under any spelling. -/
def hasContingent (w : World) (f : Formula) : Bool :=
  w.contingents.any (·.equiv (w.spellFormula f))

/-- The stored literal that a text names. -/
def fact? (w : World) (s : String) : Option Literal :=
  match Literal.parse s with
  | .ok l => w.facts.find? (·.sameFact (w.spellLiteral l))
  | .error _ => none

/-- The stored fluent that a text names; a value in the text does not count. -/
def fluent? (w : World) (s : String) : Option Fluent :=
  match Fluent.parse s with
  | .ok f => w.fluents.find? (·.sameKey (w.spellFluent f))
  | .error _ => none

/-- One line about a world, with the number of things of each kind. -/
def summary (w : World) : String :=
  "KnowledgeBase \x7b domain: " ++ Text.quoted w.domain.name ++
    ", instances: " ++ toString w.objects.length ++
    ", predicates: " ++ toString w.facts.length ++ ", functions: " ++ toString w.fluents.length ++
    ", conditionals: " ++ toString w.contingents.length ++ ", goal_nodes: " ++
    toString w.goal.size ++ " \x7d"

end World

end WorldModel
