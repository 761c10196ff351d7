/-
Contingent facts.

`(unknown P)` says that P may be true, `(oneof P …)` that exactly one of several
literals is, `(or P Q)` that at least one of two is. A one-of over a single literal
is not contingent at all and is kept as a fact. Removing `(unknown P)` settles P: it
stops being a candidate of every one-of that lists it.

`removeContingent` takes the settled literal out of the one-ofs before it stores
what is left of them, so when one of these cannot be stored the world that remains
is neither the old one nor the intended one.
-/
import WorldModel.World.Facts

set_option autoImplicit false

namespace WorldModel.World

/-! ## Adding -/

/-- The literal of a one-of with a single child. -/
def soleDisjunct? (f : Formula) : Option Literal :=
  match f.root? with
  | none => none
  | some n =>
    match n.kind.tag, n.children with
    | .oneOf, [c] => (f.node? c).bind (·.kind.literal?)
    | _, _ => none

/-- Stores a contingent fact that has been checked: a one-of over a single literal
as a fact, any other formula as it is. -/
def store (w : World) (f : Formula) : Outcome :=
  match soleDisjunct? f with
  | some l => w.addFact l
  | none => accepted { w with contingents := w.contingents ++ [f] }

/-- **Adds a contingent fact** of a proper shape, valid and not yet stored. -/
def addContingent (w : World) (f : Formula) : Outcome :=
  match shapeFault? f with
  | some reason => w.refused (.malformedContingent f.text reason)
  | none =>
    if !w.validFormula f then w.refused (.invalidFormula f.text)
    else
      let f := w.spellFormula f
      if w.hasContingent f then w.refused (.duplicateContingent f.text)
      else w.store f

/-! ## Settling an unknown fact -/

/-- The literals of a one-of without those that state the settled fact; nothing if it
lists none of them, or is no one-of. -/
def withoutDisjunct? (settled : Literal) (f : Formula) : Option (List Literal) :=
  if f.rootTag? == some .oneOf && f.literals.any (·.sameFact settled) then
    some (f.literals.filter fun l => !l.sameFact settled)
  else none

/-- Stores one-ofs over the given lists of literals one after the other, leaving out
empty ones, up to the first that is refused. -/
def storeOneOfs (w : World) : List (List Literal) → Outcome
  | [] => w.accepted
  | [] :: rest => w.storeOneOfs rest
  | ls :: rest =>
    let o := w.store (.oneOf ls)
    match o.refusal with
    | none => o.world.storeOneOfs rest
    | some _ => o

/-- Takes a literal out of every one-of that lists it. -/
def settle (w : World) (l : Literal) : Outcome :=
  let kept := w.contingents.filter fun f => (withoutDisjunct? l f).isNone
  let shortened := w.contingents.filterMap (withoutDisjunct? l)
  { w with contingents := kept }.storeOneOfs shortened

/-! ## Removing -/

/-- **Removes a contingent fact**, the first that equals the given one; if that is an
unknown fact it is settled. One that is valid but not stored is removed already. -/
def removeContingent (w : World) (f : Formula) : Outcome :=
  if !w.validFormula f then w.refused (.invalidFormula f.text)
  else
    let f := w.spellFormula f
    if !w.contingents.any (·.equiv f) then w.accepted
    else
      let left := { w with contingents := w.contingents.eraseP (·.equiv f) }
      match f.rootTag?, f.literals with
      | some .unknown, l :: _ => left.settle l
      | _, _ => left.accepted

end WorldModel.World
