/-
Terms: formulas as ordinary trees. A formula is stored as an array of numbered
nodes (`WorldModel.Formula`), which is what gets exchanged and edited; what it
means is the term that unfolds from one of its nodes. Everything that looks at a
formula from the top downwards, comparing, printing, checking, evaluating, is
defined on terms, by recursion on them.

The file holds the type, the walk in pre-order, comparison up to identity of
atoms, and the numbering that turns a term back into nodes.
-/
import WorldModel.Formula.Node

set_option autoImplicit false

namespace WorldModel

/-- A formula as a tree. -/
inductive Term where
  | node (kind : NodeKind) (children : List Term)
deriving Inhabited

namespace Term

/-- The kind at the top. -/
def kind : Term → NodeKind
  | node k _ => k

/-- The immediate subterms. -/
def children : Term → List Term
  | node _ cs => cs

/-! ## Walking -/

mutual

/-- The kinds of all nodes in pre-order. -/
def kinds : Term → List NodeKind
  | node k cs => k :: kindsAll cs

/-- The kinds of all nodes of several terms, one term after the other. -/
def kindsAll : List Term → List NodeKind
  | [] => []
  | t :: ts => kinds t ++ kindsAll ts

end

/-- The literals in pre-order. -/
def literals (t : Term) : List Literal :=
  t.kinds.filterMap NodeKind.literal?

/-- The fluents in pre-order. -/
def fluents (t : Term) : List Fluent :=
  t.kinds.filterMap NodeKind.fluent?

/-- Whether some literal or fluent names the object. -/
def mentions (t : Term) (object : String) : Bool :=
  t.literals.any (·.mentions object) || t.fluents.any (·.mentions object)

/-! ## Comparing -/

mutual

/-- **Equality of terms** up to identity of atoms, in the order of the children. -/
def same : Term → Term → Bool
  | node k cs, node l ds => k.same l && sameAll cs ds

/-- Equality of two lists of terms, place by place. -/
def sameAll : List Term → List Term → Bool
  | [], [] => true
  | t :: ts, u :: us => same t u && sameAll ts us
  | _, _ => false

end

/-! ## Numbering -/

mutual

/-- The number of nodes. -/
def size : Term → Nat
  | node _ cs => sizeAll cs + 1

/-- The number of nodes of several terms. -/
def sizeAll : List Term → Nat
  | [] => 0
  | t :: ts => size t + sizeAll ts

end

/-- The numbers of the top nodes when terms are numbered one after the other in
pre-order from `start` on. -/
def tops (start : Nat) : List Term → List Nat
  | [] => []
  | t :: ts => start :: tops (start + t.size) ts

mutual

/-- The nodes of a term, numbered in pre-order from `start` on. -/
def nodesFrom (start : Nat) : Term → List Node
  | node k cs => ⟨start, k, tops (start + 1) cs⟩ :: nodesFromAll (start + 1) cs

/-- The nodes of several terms, numbered one term after the other. -/
def nodesFromAll (start : Nat) : List Term → List Node
  | [] => []
  | t :: ts => nodesFrom start t ++ nodesFromAll (start + t.size) ts

end

mutual

/-- A term has as many nodes as its size says. -/
theorem length_nodesFrom (start : Nat) : (t : Term) → (nodesFrom start t).length = t.size
  | node k cs => by simp [nodesFrom, size, length_nodesFromAll (start + 1) cs]

/-- Several terms have as many nodes as their size says. -/
theorem length_nodesFromAll (start : Nat) :
    (ts : List Term) → (nodesFromAll start ts).length = sizeAll ts
  | [] => by simp [nodesFromAll, sizeAll]
  | t :: ts => by
    simp [nodesFromAll, sizeAll, length_nodesFrom start t,
      length_nodesFromAll (start + t.size) ts]

end

end Term

end WorldModel
