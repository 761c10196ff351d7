/-
Removing an object takes along everything that names it: facts, fluents, the parts
of the goal and contingent facts. A one-of loses only the literals that name the
object; with one literal left it becomes a fact, with none it goes.

The goal is pruned at its top: a conjunction or disjunction keeps the parts that do
not name the object, any other goal that names it is dropped.
-/
import WorldModel.World.Contingent

set_option autoImplicit false

namespace WorldModel

/-- How many things of each kind the removal of an object touched. -/
structure CascadeReport where
  facts : Nat
  fluents : Nat
  contingents : Nat
  /-- Parts dropped from the goal. -/
  subgoals : Nat
deriving DecidableEq, Inhabited

/-! ## Goals -/

/-- The parts of a goal that do not name the object. -/
def survivingParts (goal : Formula) (object : String) : List Formula :=
  goal.topLevel.filter fun p => !p.mentions object

/-- **A goal without the parts that name the object.** -/
def pruneGoal (goal : Formula) (object : String) : Formula :=
  let parts := survivingParts goal object
  match goal.rootTag? with
  | some .and => (Formula.fromSubtrees .and parts).getD .empty
  | some .or => (Formula.fromSubtrees .or parts).getD .empty
  | _ => parts.headD .empty

/-! ## Contingent facts -/

/-- What becomes of a contingent fact when an object goes. -/
inductive Pruned where
  | kept (f : Formula)
  | folded (l : Literal)
  | dropped

/-- **The fate of a contingent fact** when the object goes. -/
def pruneContingent (object : String) (f : Formula) : Pruned :=
  if !f.mentions object then .kept f
  else if f.rootTag? == some .oneOf then
    match f.literals.filter fun l => !l.mentions object with
    | [] => .dropped
    | [l] => .folded l
    | ls => .kept (.oneOf ls)
  else .dropped

/-- The formula that stays. -/
def Pruned.kept? : Pruned → Option Formula
  | kept f => some f
  | _ => none

/-- The literal that becomes a fact. -/
def Pruned.folded? : Pruned → Option Literal
  | folded l => some l
  | _ => none

namespace World

/-- Adds facts one after the other; what is refused is passed over. -/
def addFacts (w : World) (ls : List Literal) : World :=
  ls.foldl (fun w l => (w.addFact l).world) w

/-- The contingent facts without the object, and the facts that come of them. -/
def pruneContingents (w : World) (object : String) : World :=
  let pruned := w.contingents.map (pruneContingent object)
  { w with contingents := pruned.filterMap Pruned.kept? }.addFacts
    (pruned.filterMap Pruned.folded?)

/-- The world without the facts, fluents, goal parts and objects of the name. -/
def withoutObject (w : World) (object : String) : World :=
  { w with
    objects := w.objects.eraseP (·.name == object)
    facts := w.facts.filter fun l => !l.mentions object
    fluents := w.fluents.filter fun f => !f.mentions object
    goal := if w.goal.mentions object then pruneGoal w.goal object else w.goal }

/-- What the removal of an object touches. -/
def cascadeReport (w : World) (object : String) : CascadeReport where
  facts := w.facts.countP (·.mentions object)
  fluents := w.fluents.countP (·.mentions object)
  contingents := w.contingents.countP (·.mentions object)
  subgoals :=
    if w.goal.mentions object then w.goal.topLevel.countP (·.mentions object) else 0

/-- **Removes an object with everything that names it**; the report comes with the
world, and without such an object the world stays as it is. -/
def removeObject (w : World) (object : String) : World × Option CascadeReport :=
  if w.objects.any (·.name == object) then
    ((w.withoutObject object).pruneContingents object, some (w.cascadeReport object))
  else (w, none)

end World

end WorldModel
