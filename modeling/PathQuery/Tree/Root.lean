import PathQuery.Tree.JsonBackend
import PathQuery.Tree.BranchBackend

/-!
# Roots and the backends that accept them

An evaluation is given a root of some kind. Openers are asked in turn for a backend until one accepts
the root.
-/

namespace PathQuery

inductive Root where
  | json (d : Json.Document)
  | branch (b : Branch)
  /-- A thing of a kind that only an opener of everything accepts. -/
  | foreign

instance : Inhabited Root := ⟨.foreign⟩

/-- Makes a backend for the roots it recognises. -/
abbrev Opener := Root → Option Backend

namespace Opener

def json : Opener
  | .json d => some (Json.backend d)
  | _ => none

def branch : Opener
  | .branch b => some b.backend
  | _ => none

/-- A single node without children that holds a text. -/
def blindBackend : Backend where
  get _ _ := []
  kind _ := .other "opaque"
  value _ := some (.str "opaque")
  text _ := none
  weight _ := 1
  weight_children _ := by simp

/-- Accepts every root and sees nothing in it. -/
def anything : Opener := fun _ => some blindBackend

end Opener

def openRoot? (openers : List Opener) (root : Root) : Option Backend :=
  openers.findSome? (· root)

/-- The JSON value of an item: a computed value written as JSON, or the value at a node of a JSON
root. Anything else is null. -/
def Root.itemJson (root : Root) : Item → Json
  | .scalar .null => .null
  | .scalar (.bool b) => .bool b
  | .scalar (.int i) => .number (.int i.toInt)
  | .scalar (.real r) => if r.isFinite then .number (.real r) else .null
  | .scalar (.str s) => .string s
  | .node a =>
    match root with
    | .json d => (d.value.at? a).getD .null
    | _ => .null

end PathQuery
