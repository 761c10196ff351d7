/-
Questions about formulas and the ways to take them apart and put them together
again.

Whatever is asked about a node is asked about the term below it. `extract` makes
that term a formula of its own; `topLevel` and `fromSubtrees` undo each other on
conjunctions and disjunctions, which is how a goal loses some of its parts and
keeps the others.
-/
import WorldModel.Formula.Basic

set_option autoImplicit false

namespace WorldModel.Formula

/-! ## Comparing

A node may be its own child, and then no term is below it: it goes on for ever. Such a
formula can still be compared with one that ends, and differs from it. Both are therefore
unfolded to one more level than they have nodes together. What ends is unfolded whole by
that, and what does not end is cut off deeper than anything that does. -/

/-- Equality of what stands below two nodes; false if one is missing. -/
def equivAt (f : Formula) (id : Nat) (g : Formula) (other : Nat) : Bool :=
  let depth := f.size + g.size + 1
  match f.unfoldWithin depth id, g.unfoldWithin depth other with
  | some t, some u => t.same u
  | _, _ => false

/-- **Structural equality**: both empty, or equal from the roots on. -/
def equiv (f g : Formula) : Bool :=
  f.isEmpty && g.isEmpty || f.equivAt 0 g 0

/-! ## Atoms -/

/-- The literals below a node in pre-order. -/
def literalsUnder (f : Formula) (id : Nat) : List Literal :=
  match f.unfold id with
  | some t => t.literals
  | none => []

/-- The fluents below a node in pre-order. -/
def fluentsUnder (f : Formula) (id : Nat) : List Fluent :=
  match f.unfold id with
  | some t => t.fluents
  | none => []

/-- All literals that the root reaches. -/
def literals (f : Formula) : List Literal :=
  f.literalsUnder 0

/-- All fluents that the root reaches. -/
def fluents (f : Formula) : List Fluent :=
  f.fluentsUnder 0

/-- Whether some literal or fluent names the object. -/
def mentions (f : Formula) (object : String) : Bool :=
  f.literals.any (·.mentions object) || f.fluents.any (·.mentions object)

/-- Renames every atom, of unreachable nodes too. -/
def renameAtoms (f : Formula) (literalName fluentName : String → String) : Formula :=
  ⟨f.nodes.map fun n => { n with kind := n.kind.rename literalName fluentName }⟩

/-! ## Parts -/

/-- **The part below a node** as a formula of its own, numbered in pre-order; empty
if there is no such node. -/
def extract (f : Formula) (id : Nat) : Formula :=
  ofTerm? (f.unfold id)

/-- The parts below the nodes of one tag, in the order of their numbers. -/
def subtreesOfTag (f : Formula) (tag : NodeTag) : List Formula :=
  (f.nodes.toList.filter (·.kind.tag == tag)).map fun n => f.extract n.id

/-- The parts a formula falls into: the children of a conjunction or disjunction;
any other formula that is not empty is its own only part. -/
def topLevel (f : Formula) : List Formula :=
  match f.root? with
  | none => []
  | some n =>
    match n.kind with
    | .and | .or => n.children.map f.extract
    | _ => [f]

/-- One formula from parts: AND, OR and ONE_OF join all of them, NOT negates a
single one, and for any other tag a single part stands for itself. Empty parts are
left out, and nothing comes of nothing. -/
def fromSubtrees (tag : NodeTag) (parts : List Formula) : Option Formula :=
  match tag, parts.filter (fun p => !p.isEmpty) with
  | _, [] => none
  | .and, ps => some (compose .and ps)
  | .or, ps => some (compose .or ps)
  | .oneOf, ps => some (compose .oneOf ps)
  | .not, [p] => some (compose .not [p])
  | _, [p] => some p
  | _, _ => none

end WorldModel.Formula
