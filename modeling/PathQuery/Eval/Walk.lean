import PathQuery.Tree.Backend

/-!
# Walks in depth

A walk visits nodes and everything below them, each node before its children and children in order,
and no node twice. It works on a stack; the weights of the nodes on it shrink at every step.
-/

namespace PathQuery

/-- A node that is to be visited, and whether the walk started there. -/
structure Visit where
  node : Address
  isStart : Bool
  deriving DecidableEq

def Backend.stackWeight (b : Backend) (stack : List Visit) : Nat :=
  totalOf (fun v => b.weight v.node) stack

def Backend.childVisits (b : Backend) (a : Address) : List Visit :=
  (b.get a .wildcard).map fun c => ⟨c.1, false⟩

theorem Backend.stackWeight_childVisits (b : Backend) (a : Address) :
    b.stackWeight (b.childVisits a) < b.weight a := by
  have h := b.weight_children a
  simpa [stackWeight, childVisits, totalOf_map] using h

/-- The visits of a walk in order, given the nodes it has seen. -/
def Backend.walk (b : Backend) (seen : AddressSet) (stack : List Visit) : List Visit :=
  match stack with
  | [] => []
  | v :: rest =>
    -- what is below a node that is met again was put on the stack with it the first time
    if seen.contains v.node then b.walk seen rest
    else v :: b.walk (seen.insert v.node) (b.childVisits v.node ++ rest)
termination_by b.stackWeight stack
decreasing_by
  · have h := b.weight_children v.node
    simp only [stackWeight, totalOf_cons]
    omega
  · have h := b.stackWeight_childVisits v.node
    simp only [stackWeight, totalOf_append, totalOf_cons] at h ⊢
    omega

end PathQuery
