/-
Adding and removing objects, facts and fluents, and setting the goal.

Objects are known by name, facts as signed atoms, fluents by their key; adding what
is there already changes nothing, except that a fluent takes its new value. Every
operation here either leaves the world as it was and says why, or stores something
valid.
-/
import WorldModel.World.Validity

set_option autoImplicit false

namespace WorldModel.World

/-! ## Objects -/

/-- Adds an object. The same name with another type is refused. -/
def addObject (w : World) (e : Entity) : Outcome :=
  if !w.domain.declares e.typeName then w.refused (.unknownType e.typeName)
  else
    match w.object? e.name with
    | none => accepted { w with objects := w.objects ++ [e] }
    | some old =>
      if old.typeName = e.typeName then w.accepted
      else w.refused (.objectConflict e.name old.typeName e.typeName)

/-! ## Facts -/

/-- Adds a fact. -/
def addFact (w : World) (l : Literal) : Outcome :=
  let l := w.spellLiteral l
  if w.hasFact l then w.accepted
  else if w.validLiteral l then accepted { w with facts := w.facts ++ [l] }
  else w.refused (.invalidLiteral (l.text .asStored))

/-- Removes a fact. One that is valid but not stored is removed already. -/
def removeFact (w : World) (l : Literal) : Outcome :=
  if !w.validLiteral l then w.refused (.invalidLiteral (l.text .asStored))
  else accepted { w with facts := w.facts.eraseP (·.sameFact (w.spellLiteral l)) }

/-! ## Fluents -/

/-- The fluents with a new value for the first one of the given key. -/
def setValue (f : Fluent) : List Fluent → List Fluent
  | [] => []
  | g :: gs => if g.sameKey f then { g with value := f.value } :: gs else g :: setValue f gs

/-- Gives a stored fluent a new value. -/
def updateFluent (w : World) (f : Fluent) : Outcome :=
  let f := w.spellFluent f
  if !w.validFluent f then w.refused (.invalidFluent (f.text .asStored))
  else if w.fluents.any (·.sameKey f) then accepted { w with fluents := setValue f w.fluents }
  else w.refused (.fluentNotFound (f.termText .asStored))

/-- Adds a fluent, or gives it a new value if it is stored. -/
def addFluent (w : World) (f : Fluent) : Outcome :=
  let f := w.spellFluent f
  if w.hasFluent f then w.updateFluent f
  else if w.validFluent f then accepted { w with fluents := w.fluents ++ [f] }
  else w.refused (.invalidFluent (f.text .asStored))

/-- Removes a fluent. One that is valid but not stored is removed already. -/
def removeFluent (w : World) (f : Fluent) : Outcome :=
  if !w.validFluent f then w.refused (.invalidFluent (f.text .asStored))
  else accepted { w with fluents := w.fluents.eraseP (·.sameKey (w.spellFluent f)) }

/-! ## Goals -/

/-- Sets the goal. -/
def setGoal (w : World) (f : Formula) : Outcome :=
  if w.validFormula f then accepted { w with goal := w.spellFormula f }
  else w.refused (.invalidFormula f.text)

/-- Leaves the world without a goal. -/
def clearGoal (w : World) : World :=
  { w with goal := .empty }

/-- Leaves nothing but the domain. -/
def clear (w : World) : World :=
  empty w.domain

end WorldModel.World
