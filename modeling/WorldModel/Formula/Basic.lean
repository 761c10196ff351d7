/-
Formulas as arrays of numbered nodes.

A formula is an array of nodes in which a node's number is its position and
children are given by number; node 0 is the root, and the empty array is the
empty formula. The array allows a formula to be exchanged as a flat list, to be
extended one node at a time, and to hold nodes that no path from the root
reaches.

`Formula.unfold` reads a node as a term, and `Formula.ofTerm` numbers a term in
pre-order. All builders but `push` and `pushChild` go through terms: grafting
copies the term of a node, and composing puts a new top over the terms of the
parts.
-/
import WorldModel.Formula.Term

set_option autoImplicit false

namespace WorldModel

/-- A formula: its nodes in the order of their numbers. -/
structure Formula where
  nodes : Array Node
deriving BEq, Inhabited

namespace Formula

/-! ## Looking at nodes -/

/-- The formula without nodes. -/
def empty : Formula :=
  ⟨#[]⟩

/-- The number of nodes, reachable or not. -/
def size (f : Formula) : Nat :=
  f.nodes.size

/-- Whether there is no node at all. -/
def isEmpty (f : Formula) : Bool :=
  f.nodes.isEmpty

/-- The node with the given number. -/
def node? (f : Formula) (id : Nat) : Option Node :=
  f.nodes[id]?

/-- The root. -/
def root? (f : Formula) : Option Node :=
  f.node? 0

/-- The tag of the root. -/
def rootTag? (f : Formula) : Option NodeTag :=
  f.root?.map (·.kind.tag)

/-! ## Terms and formulas -/

/-- The term below a node, following children at most `depth` nodes deep. -/
def unfoldWithin (f : Formula) : (depth : Nat) → (id : Nat) → Option Term
  | 0, _ => none
  | depth + 1, id =>
    (f.node? id).map fun n => .node n.kind (n.children.filterMap (f.unfoldWithin depth))

/-- **The term below a node.** No path without repetition is longer than the number
of nodes, so that number is depth enough. -/
def unfold (f : Formula) (id : Nat) : Option Term :=
  f.unfoldWithin f.size id

/-- The term of the whole formula, nothing for the empty one. -/
def term? (f : Formula) : Option Term :=
  f.unfold 0

/-- **The formula of a term**, numbered in pre-order. -/
def ofTerm (t : Term) : Formula :=
  ⟨(t.nodesFrom 0).toArray⟩

/-- The formula of a term if there is one, else the empty formula. -/
def ofTerm? : Option Term → Formula
  | some t => ofTerm t
  | none => empty

/-! ## Adding nodes -/

/-- A new node without children; its number comes with it. -/
def push (f : Formula) (kind : NodeKind) : Formula × Nat :=
  (⟨f.nodes.push ⟨f.size, kind, []⟩⟩, f.size)

/-- Adds `child` behind the children of `parent`, if that is a node. -/
def attach (f : Formula) (parent child : Nat) : Option Formula :=
  if parent < f.size then
    some ⟨f.nodes.modify parent fun n => { n with children := n.children ++ [child] }⟩
  else none

/-- A new node as the last child of `parent`. The parent is looked up after the
node has been added; nothing is returned if it is not a node then. -/
def pushChild (f : Formula) (parent : Nat) (kind : NodeKind) : Option (Formula × Nat) :=
  let (g, id) := f.push kind
  (g.attach parent id).map (·, id)

/-- Puts `child` in front of the children of `parent`. -/
def attachFirst (f : Formula) (parent child : Nat) : Formula :=
  ⟨f.nodes.modify parent fun n => { n with children := child :: n.children }⟩

/-- A copy of a term, numbered in pre-order behind the present nodes and attached
under `parent` if one is given; the number of its top comes with it. The top is
attached before anything is copied below it, so it may be attached under itself and
is its own first child then. -/
def graftTerm (f : Formula) (parent : Option Nat) (t : Term) : Option (Formula × Nat) :=
  let g : Formula := ⟨f.nodes ++ (t.nodesFrom f.size).toArray⟩
  match parent with
  | none => some (g, f.size)
  | some p =>
    if p < f.size then (g.attach p f.size).map (·, f.size)
    else if p = f.size then some (g.attachFirst p f.size, f.size)
    else none

/-- **Grafting**: a copy of what stands in `source` below the node `root`. Nothing
is returned if `root` is not a node of `source` or `parent` none of `f`. -/
def graft (f : Formula) (parent : Option Nat) (source : Formula) (root : Nat) :
    Option (Formula × Nat) :=
  (source.unfold root).bind (f.graftTerm parent)

/-! ## Building -/

/-- **Composition**: a new top over the given parts, empty ones left out. -/
def compose (kind : NodeKind) (parts : List Formula) : Formula :=
  ofTerm (.node kind (parts.filterMap term?))

/-- A formula of one node. -/
def leaf (kind : NodeKind) : Formula :=
  ofTerm (.node kind [])

/-- A literal. -/
def ofLiteral (l : Literal) : Formula :=
  leaf (.predicate l)

/-- A fluent. -/
def ofFluent (f : Fluent) : Formula :=
  leaf (.function f)

/-- A number. -/
def number (value : Float) : Formula :=
  leaf (.number value)

/-- A conjunction. -/
def conj (parts : List Formula) : Formula :=
  compose .and parts

/-- A disjunction. -/
def disj (parts : List Formula) : Formula :=
  compose .or parts

/-- A negation. -/
def neg (part : Formula) : Formula :=
  compose .not [part]

/-- An operator over two parts. -/
def expression (op : Operator) (left right : Formula) : Formula :=
  compose (.expression op) [left, right]

/-- The fact that a literal may be true. -/
def unknown (l : Literal) : Formula :=
  compose .unknown [ofLiteral l]

/-- The fact that exactly one of some literals is true. -/
def oneOf (ls : List Literal) : Formula :=
  compose .oneOf (ls.map ofLiteral)

/-- The fact that one of two literals is true. -/
def either (l m : Literal) : Formula :=
  disj [ofLiteral l, ofLiteral m]

end Formula

end WorldModel
