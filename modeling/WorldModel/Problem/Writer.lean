/-
A world written as a problem.

Sections come in a fixed order: domain, objects, initial state, goal. Constants of
the domain are not listed again among the objects, the initial state lists facts,
contingent facts and fluents in this order, and a goal section is written only if a
goal is set. Three settings bear on the text: the name of the problem, the casing of
names and the depth of indentation.
-/
import WorldModel.World.Satisfaction

set_option autoImplicit false

namespace WorldModel

/-- How problems are written. -/
structure Settings where
  problemName : String
  casing : Casing
  /-- Spaces for every level. -/
  indent : Nat
deriving DecidableEq

/-- The settings when nothing else is said. -/
def Settings.standard : Settings :=
  ⟨"problem_1", .lower, 2⟩

instance : Inhabited Settings :=
  ⟨.standard⟩

namespace Settings

/-- The blanks before a line. -/
def margin (s : Settings) (level : Nat) : String :=
  String.ofList (List.replicate (level * s.indent) ' ')

/-- A line at a level. -/
def line (s : Settings) (level : Nat) (text : String) : String :=
  s.margin level ++ text ++ "\n"

end Settings

namespace World

/-- The lines of the objects that are not constants of the domain. -/
def objectLines (w : World) (s : Settings) : List String :=
  (w.objects.filter fun e => !w.domain.isConstant e).map fun e =>
    s.line 2 (e.name ++ " - " ++ s.casing.apply e.typeName)

/-- The lines of the initial state. -/
def initLines (w : World) (s : Settings) : List String :=
  w.facts.map (fun l => s.line 2 (l.text s.casing)) ++
    w.contingents.map (fun f => s.line 2 (f.render 0 s.casing)) ++
    w.fluents.map (fun f => s.line 2 (f.text s.casing))

/-- The line of the goal, if one is set. -/
def goalLine (w : World) (s : Settings) : String :=
  if w.goal.isEmpty then "" else s.line 1 ("(:goal " ++ w.goal.render 0 s.casing ++ ")")

/-- **The world as a problem.** -/
def problemText (w : World) (s : Settings) : String :=
  "(define (problem " ++ s.problemName ++ ")\n" ++
    s.line 1 ("(:domain " ++ w.domain.name ++ ")") ++
    s.line 1 "(:objects" ++ String.join (w.objectLines s) ++ s.line 1 ")" ++
    s.line 1 "(:init" ++ String.join (w.initLines s) ++ s.line 1 ")" ++
    w.goalLine s ++ ")\n"

end World

end WorldModel
