/-
Formulas as flat records, the shape in which they are exchanged.

A record lists everything a node of any kind may carry; what its tag does not use
is empty on the way out and ignored on the way in. A list of records is a formula
when the records number a tree: every record carries its position, children are
positions, no node has two parents, the root has none, and the root reaches every
node. `ofRecords` checks these conditions in that order, and after them that each
record carries what its tag needs; the first fault found is the answer.
-/
import WorldModel.Formula.Basic

set_option autoImplicit false

namespace WorldModel

/-! ## Records -/

/-- One node in the exchange shape. -/
structure Record where
  tag : NodeTag
  id : Nat
  children : List Nat
  name : String
  args : List Argument
  negated : Bool
  value : Float
  operator : Option Operator
  update : Option UpdateOp
deriving BEq, Inhabited

/-- A record that carries nothing but its place in the tree. -/
def Record.bare (tag : NodeTag) (id : Nat) (children : List Nat) : Record :=
  ⟨tag, id, children, "", [], false, 0, none, none⟩

/-- The record of a node. -/
def Node.toRecord (n : Node) : Record :=
  let r := Record.bare n.kind.tag n.id n.children
  match n.kind with
  | .predicate l => { r with name := l.name, args := l.args, negated := l.negated }
  | .function f => { r with name := f.name, args := f.args, value := f.value }
  | .expression op => { r with operator := some op }
  | .update op => { r with update := some op }
  | .number x => { r with value := x }
  | _ => r

/-! ## Faults -/

/-- Why a text or a list of records is no formula. -/
inductive FormulaError where
  /-- The record at `index` carries the number `id`. -/
  | misnumbered (index id : Nat)
  /-- A child of `node` is no position. -/
  | missingChild (node child : Nat)
  /-- A node with two parents, or a root with one. -/
  | shared (node : Nat)
  /-- A node that no path from the root reaches. -/
  | unreachable (node : Nat)
  /-- A record without the content that its tag needs. -/
  | incomplete (node : Nat) (tag : NodeTag) (field : String)
  /-- A text that is no ground atom. -/
  | badAtom (input reason : String)
deriving DecidableEq

/-- The message of a fault. -/
def FormulaError.message : FormulaError → String
  | misnumbered index id => s!"node at index {index} declares node_id {id}"
  | missingChild node child => s!"node {node} references missing child {child}"
  | shared node => s!"node {node} has more than one parent"
  | unreachable node => s!"node {node} is not reachable from the root"
  | incomplete node tag field => s!"node {node} of type {tag.label} is missing its {field}"
  | badAtom input reason => s!"cannot read \"{input}\" as a ground atom: {reason}"

/-! ## Reading records -/

/-- The kind of a record, or the name of the field that it lacks. -/
def Record.kind (r : Record) : Except String NodeKind :=
  match r.tag with
  | .and => .ok .and
  | .or => .ok .or
  | .not => .ok .not
  | .unknown => .ok .unknown
  | .oneOf => .ok .oneOf
  | .predicate =>
    if r.name = "" then .error "name" else .ok (.predicate ⟨r.name, r.args, r.negated⟩)
  | .function =>
    if r.name = "" then .error "name" else .ok (.function ⟨r.name, r.args, r.value⟩)
  | .expression =>
    match r.operator with
    | some op => .ok (.expression op)
    | none => .error "expression"
  | .update =>
    match r.update with
    | some op => .ok (.update op)
    | none => .error "modifier"
  | .number => .ok (.number r.value)

/-- The node that a record at position `index` stands for. -/
def Record.node (index : Nat) (r : Record) : Except FormulaError Node :=
  match r.kind with
  | .ok k => .ok ⟨index, k, r.children⟩
  | .error field => .error (.incomplete index r.tag field)

/-- The first record, from position `index` on, whose number or children are
wrong among `count` records. -/
def numberingFault? (count index : Nat) : List Record → Option FormulaError
  | [] => none
  | r :: rs =>
    if r.id ≠ index then some (.misnumbered index r.id)
    else
      match r.children.find? (count ≤ ·) with
      | some child => some (.missingChild index child)
      | none => numberingFault? count (index + 1) rs

/-- How often a node is listed as a child. -/
def parentCount (rs : List Record) (id : Nat) : Nat :=
  (rs.flatMap (·.children)).count id

/-- Whether a node has more parents than its place allows. -/
def isShared (rs : List Record) (id : Nat) : Bool :=
  let n := parentCount rs id
  1 < n || (id == 0 && 0 < n)

/-- The nodes reached from `frontier` in at most `steps` steps down, besides those
in `seen`. -/
def reachWithin (rs : Array Record) : (steps : Nat) → (seen frontier : List Nat) → List Nat
  | 0, seen, _ => seen
  | steps + 1, seen, frontier =>
    let next := frontier.flatMap fun id => (rs[id]?.map (·.children)).getD []
    let fresh := next.filter fun id => !seen.contains id
    if fresh.isEmpty then seen else reachWithin rs steps (seen ++ fresh) fresh

/-- The nodes that the root reaches. -/
def reached (rs : List Record) : List Nat :=
  if rs.isEmpty then [] else reachWithin rs.toArray rs.length [0] [0]

/-- The nodes of records from position `index` on, or the first that lacks its
content. -/
def nodesOfRecords (index : Nat) : List Record → Except FormulaError (List Node)
  | [] => .ok []
  | r :: rs => do
    let n ← r.node index
    let ns ← nodesOfRecords (index + 1) rs
    return n :: ns

namespace Formula

/-- The records of a formula. -/
def toRecords (f : Formula) : List Record :=
  f.nodes.toList.map Node.toRecord

/-- **The formula of a list of records**, or the first fault of the list. -/
def ofRecords (rs : List Record) : Except FormulaError Formula := do
  if let some fault := numberingFault? rs.length 0 rs then throw fault
  if let some id := (List.range rs.length).find? (isShared rs) then throw (.shared id)
  let seen := reached rs
  if let some id := (List.range rs.length).find? (fun id => !seen.contains id) then
    throw (.unreachable id)
  let ns ← nodesOfRecords 0 rs
  return ⟨ns.toArray⟩

end Formula

end WorldModel
