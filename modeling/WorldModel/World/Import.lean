/-
Importing problems into a world.

A text that is blank, names no domain or another one, or cannot be read is refused
as a whole before anything is stored. After that every item stands for itself: the
constants of the domain and the objects, the facts, the contingent facts and the
goal are added in this order, and an item that is refused is skipped and listed with
the reason. The report counts what was added.
-/
import WorldModel.World.Cascade
import WorldModel.World.Satisfaction

set_option autoImplicit false

namespace WorldModel

/-! ## Reports -/

/-- What an import added, and what it skipped. -/
structure ImportReport where
  problem : String
  objects : Nat
  facts : Nat
  fluents : Nat
  contingents : Nat
  goalSet : Bool
  /-- One line for every item skipped: the item and the reason. -/
  skipped : List String
deriving DecidableEq, Inhabited

namespace ImportReport

/-- A report on nothing yet. -/
def started (problem : String) : ImportReport :=
  ⟨problem, 0, 0, 0, 0, false, []⟩

/-- The report as text. -/
def text (r : ImportReport) : String :=
  "problem: " ++ r.problem ++ "\n" ++
    s!"  instances:    {r.objects}\n  predicates:   {r.facts}\n" ++
    s!"  functions:    {r.fluents}\n  conditionals: {r.contingents}\n" ++
    "  goal:         " ++ (if r.goalSet then "set" else "unset") ++ "\n" ++
    (if r.skipped.isEmpty then ""
      else s!"  skipped ({r.skipped.length}):\n" ++
        String.join (r.skipped.map fun l => "    " ++ l ++ "\n"))

end ImportReport

/-! ## Items -/

/-- One thing that a problem asks a world to take. -/
inductive ImportItem where
  | object (e : Entity)
  | init (f : Formula)
  | contingent (f : Formula)
  | goal (f : Formula)

namespace ImportItem

/-- The items of a problem, after the constants of the domain. -/
def ofProblem (d : Domain) (p : Problem) : List ImportItem :=
  (d.constants ++ p.objects).map object ++ p.init.map init ++ p.contingent.map contingent ++
    p.goal.toList.map goal

/-- How an item is listed when it is skipped. -/
def text : ImportItem → String
  | object e => e.text
  | init f => f.text
  | contingent f => f.text
  | goal f => "goal " ++ f.text

/-- Counts an item that was added. -/
def count (r : ImportReport) : ImportItem → ImportReport
  | object _ => { r with objects := r.objects + 1 }
  | init f =>
    if f.rootTag? == some .function then { r with fluents := r.fluents + 1 }
    else { r with facts := r.facts + 1 }
  | contingent _ => { r with contingents := r.contingents + 1 }
  | goal _ => { r with goalSet := true }

end ImportItem

namespace World

/-- Stores an item of the initial state by what its root is; an empty formula asks
for nothing. -/
def addInit (w : World) (f : Formula) : Outcome :=
  match f.root?.map Node.kind with
  | none => w.accepted
  | some (.predicate l) => w.addFact l
  | some (.function g) => w.addFluent g
  | some _ => w.addContingent f

/-- Stores an item. -/
def addItem (w : World) : ImportItem → Outcome
  | .object e => w.addObject e
  | .init f => w.addInit f
  | .contingent f => w.addContingent f
  | .goal f => w.setGoal f

/-- Stores an item and says so in the report, or skips it with the reason. -/
def importItem (s : World × ImportReport) (item : ImportItem) : World × ImportReport :=
  let o := s.1.addItem item
  match o.refusal with
  | none => (o.world, item.count s.2)
  | some r =>
    (o.world, { s.2 with skipped := s.2.skipped ++ [item.text ++ ": " ++ r.message] })

/-- Imports a problem that has been read. -/
def importRead (w : World) (p : Problem) : World × ImportReport :=
  (ImportItem.ofProblem w.domain p).foldl importItem (w, .started p.name)

/-- The text a grammar is given: lower case and without comments. -/
def prepared (s : String) : String :=
  SExpr.removeComments (Text.lower s)

/-- The problem that a text stands for in this world. -/
def readProblem (w : World) (g : Grammar) (s : String) : Except ProblemError Problem :=
  if Text.isAllBlank s then .error .blank
  else
    match g.domainName (prepared s) with
    | none => .error .missingDomain
    | some name =>
      if Text.isAllBlank name then .error .missingDomain
      else if !w.domain.answersTo name then .error (.unknownDomain name)
      else g.read (prepared s) w.domain

/-- **Imports a problem** by a grammar of one's own. -/
def importWith (w : World) (g : Grammar) (s : String) :
    Except ProblemError (World × ImportReport) :=
  (w.readProblem g s).map w.importRead

/-- **Imports a problem** in the parenthesised form. -/
def importProblem (w : World) (s : String) : Except ProblemError (World × ImportReport) :=
  w.importWith .standard s

end World

end WorldModel
