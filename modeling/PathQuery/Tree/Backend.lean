import PathQuery.Value.Scalar
import PathQuery.Tree.Weight
import Std.Data.TreeSet

/-!
# Trees seen through a backend

Expressions walk trees they know nothing else about than what a `Backend` answers: the children of a
node, and what a node is and holds. A node is named by its address, the positions of the children
that lead to it from the root. Below every node a tree is finite; a backend says so with a weight
that the children of a node never exhaust.
-/

namespace PathQuery

/-! ### Nodes -/

/-- Positions of children, from the root on. -/
abbrev Address := List Nat

abbrev AddressSet := Std.TreeSet Address compare

/-- What children of a node are asked for. -/
inductive Key where
  | name (n : String)
  /-- A position in a list, negative from its end; in a map, the key spelled with these digits. -/
  | index (i : Int64)
  | wildcard
  deriving DecidableEq, Repr

inductive Kind where
  | map
  | list
  | string
  | number
  | boolean
  | null
  | other (name : String)
  deriving DecidableEq, Repr

namespace Kind

def text : Kind → String
  | map => "map"
  | list => "list"
  | string => "string"
  | number => "number"
  | boolean => "boolean"
  | null => "null"
  | other name => name

end Kind

def Scalar.kind : Scalar → Kind
  | null => .null
  | bool _ => .boolean
  | int _ | real _ => .number
  | str _ => .string

/-- Where a node stands under its parent: at a key, at an index, or neither is known. -/
structure Place where
  key : Option String
  index : Option Nat
  deriving DecidableEq, Repr

/-! ### Backends -/

/-- What a kind of tree answers about its nodes. -/
structure Backend where
  /-- The children that a key selects, in document order, with their places. -/
  get : Address → Key → List (Address × Place)
  kind : Address → Kind
  /-- The scalar a node holds; containers hold none. -/
  value : Address → Option Scalar
  /-- The text of a node that holds no scalar. -/
  text : Address → Option String
  /-- A bound on the nodes at and below a node. -/
  weight : Address → Nat
  weight_children : ∀ a, totalOf weight ((get a .wildcard).map Prod.fst) < weight a

/-! ### Items -/

/-- One result: a node of the tree or a computed value. -/
inductive Item where
  | scalar (v : Scalar)
  | node (a : Address)
  deriving DecidableEq

namespace Item

def node? : Item → Option Address
  | node a => some a
  | scalar _ => none

/-- The item as diagnostics show it; nodes are not told apart. -/
def describe : Item → String
  | scalar v => v.describe
  | node _ => "Node(NodeRef(_))"

end Item

namespace Backend

/-- The item with a node that holds a scalar replaced by that scalar. -/
def reduce (b : Backend) : Item → Item
  | .node a =>
    match b.value a with
    | some v => .scalar v
    | none => .node a
  | .scalar v => .scalar v

def itemKind (b : Backend) : Item → Kind
  | .node a => b.kind a
  | .scalar v => v.kind

end Backend

/-- An index into a list of `length` elements, counted from the end if it is negative. -/
def fromStart (length : Nat) (i : Int64) : Int :=
  if i.toInt < 0 then length + i.toInt else i.toInt

def position? (length : Nat) (i : Int64) : Option Nat :=
  if 0 ≤ fromStart length i ∧ fromStart length i < length then some (fromStart length i).toNat
  else none

theorem position?_lt {length : Nat} {i : Int64} {n : Nat} (h : position? length i = some n) :
    n < length := by
  simp only [position?] at h
  split at h
  · simp only [Option.some.injEq] at h
    omega
  · simp at h

end PathQuery
