import PathQuery.Tree.Backend

/-!
# Trees of named branches

A tree in which every node has a name, may hold an integer or a text, and has children of which
several may share a name.
-/

namespace PathQuery

inductive Leaf where
  | empty
  | int (i : Int64)
  | text (s : String)
  deriving DecidableEq

/-- A node with its name, what it holds, and its children. -/
inductive Branch where
  | mk (name : String) (leaf : Leaf) (children : List Branch)

namespace Branch

instance : Inhabited Branch := ⟨mk "" .empty []⟩

def name : Branch → String
  | mk n _ _ => n

def leaf : Branch → Leaf
  | mk _ l _ => l

def children : Branch → List Branch
  | mk _ _ bs => bs

/-! ### Addresses and sizes -/

/-- The branch at the end of a walk that goes to a child by its position at each step. -/
def at? (b : Branch) : Address → Option Branch
  | [] => some b
  | i :: is => b.children[i]?.bind (at? · is)

theorem at?_append (b : Branch) (p q : Address) : b.at? (p ++ q) = (b.at? p).bind (at? · q) := by
  induction p generalizing b with
  | nil => rfl
  | cons i is ih =>
    simp only [List.cons_append, at?]
    cases b.children[i]? with
    | none => rfl
    | some c => exact ih c

mutual

def size : Branch → Nat
  | mk _ _ bs => 1 + sizeAll bs

def sizeAll : List Branch → Nat
  | [] => 0
  | b :: bs => b.size + sizeAll bs

end

theorem sizeAll_eq (bs : List Branch) : sizeAll bs = totalOf size bs := by
  induction bs with
  | nil => rfl
  | cons b bs ih => simp [sizeAll, ih]

theorem size_eq_children (b : Branch) : b.size = 1 + totalOf size b.children := by
  cases b
  simp [size, children, sizeAll_eq]

/-! ### The backend -/

/-- The positions of the children that a key selects: every child of a name, or one by its index. -/
def positions (b : Branch) : Key → List Nat
  | .wildcard => List.range b.children.length
  | .name n => (List.range b.children.length).filter fun i => (b.children[i]?.map name) = some n
  | .index i => (position? b.children.length i).toList

/-- The child at a position, with its address under `a`; its name is its key. -/
def childAt (b : Branch) (a : Address) (i : Nat) : Address × Place :=
  (a ++ [i], ⟨b.children[i]?.map name, none⟩)

def getAt (b : Branch) (a : Address) (key : Key) : List (Address × Place) :=
  match b.at? a with
  | some c => (c.positions key).map (c.childAt a)
  | none => []

/-- The number of branches at and below the node at `a`; an address of nothing counts as one. -/
def weightAt (b : Branch) (a : Address) : Nat :=
  match b.at? a with
  | some c => c.size
  | none => 1

theorem weightAt_child {b c : Branch} {a : Address} (h : b.at? a = some c) (i : Nat)
    (hi : i < c.children.length) : b.weightAt (a ++ [i]) = (c.children[i]).size := by
  simp [weightAt, at?_append, h, at?, hi]

theorem weightAt_children (b : Branch) (a : Address) :
    totalOf b.weightAt ((b.getAt a .wildcard).map Prod.fst) < b.weightAt a := by
  cases h : b.at? a with
  | none => simp [getAt, weightAt, h]
  | some c =>
    have htotal : totalOf b.weightAt ((b.getAt a .wildcard).map Prod.fst) =
        totalOf size c.children := by
      apply totalOf_eq_of_getElem
      · simp [getAt, h, positions]
      · intro i _ hi
        simp [getAt, h, positions, childAt, weightAt_child h i hi]
    have hweight : b.weightAt a = 1 + totalOf size c.children := by
      simp [weightAt, h, ← size_eq_children]
    rw [htotal, hweight]
    omega

def scalar? (b : Branch) : Option Scalar :=
  match b.leaf with
  | .empty => none
  | .int i => some (.int i)
  | .text s => some (.str s)

/-- A branch with children is a map; otherwise what it holds decides. -/
def kind (b : Branch) : Kind :=
  if !b.children.isEmpty then .map
  else match b.leaf with
    | .empty => .null
    | .int _ => .number
    | .text _ => .string

/-- A tree of branches as a tree. Its nodes have no text of their own. -/
def backend (b : Branch) : Backend where
  get := b.getAt
  kind a := ((b.at? a).map kind).getD .null
  value a := (b.at? a).bind scalar?
  text _ := none
  weight := b.weightAt
  weight_children := b.weightAt_children

end Branch
end PathQuery
