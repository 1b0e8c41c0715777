import PathQuery.Tree.Backend
import PathQuery.Json.Printer

/-!
# JSON documents as trees

The children of an array are its elements and those of an object the values of its fields, in the
order of the document.
-/

namespace PathQuery
namespace Json

/-! ### Scalars and kinds -/

/-- The number as a scalar: an integer if it fits 64 bits with a sign, otherwise a real. -/
def numberScalar : JsonNumber → Scalar
  | .int n =>
    match fitInt64? n with
    | some i => .int i
    | none => .real (Float.ofInt n)
  | .real r => .real r

def scalar? : Json → Option Scalar
  | .null => some .null
  | .bool b => some (.bool b)
  | .number n => some (numberScalar n)
  | .string s => some (.str s)
  | .array _ => none
  | .object _ => none

def kind : Json → Kind
  | .null => .null
  | .bool _ => .boolean
  | .number _ => .number
  | .string _ => .string
  | .array _ => .list
  | .object _ => .map

/-! ### Children by key -/

def place (v : Json) (i : Nat) : Place :=
  match v with
  | .array _ => ⟨none, some i⟩
  | .object fields => ⟨fields[i]?.map Prod.fst, none⟩
  | _ => ⟨none, none⟩

def fieldPosition? (key : String) (fields : List (String × Json)) : Option Nat :=
  fields.findIdx? fun f => f.1 = key

def positions (v : Json) : Key → List Nat
  | .wildcard => List.range v.children.length
  | .name n =>
    match v with
    | .object fields => (fieldPosition? n fields).toList
    | _ => []
  | .index i =>
    match v with
    | .object fields => (fieldPosition? (intText i) fields).toList
    | .array items => (position? items.length i).toList
    | _ => []

def childAt (v : Json) (a : Address) (i : Nat) : Address × Place :=
  (a ++ [i], v.place i)

/-! ### The backend -/

def getAt (v : Json) (a : Address) (key : Key) : List (Address × Place) :=
  match v.at? a with
  | some w => (w.positions key).map (w.childAt a)
  | none => []

/-- The number of values at and inside the node at `a`; an address of nothing counts as one. -/
def weightAt (v : Json) (a : Address) : Nat :=
  match v.at? a with
  | some w => w.size
  | none => 1

theorem weightAt_child {v w : Json} {a : Address} (h : v.at? a = some w) (i : Nat)
    (hi : i < w.children.length) : v.weightAt (a ++ [i]) = (w.children[i]).size := by
  simp [weightAt, at?_append, h, at?, hi]

theorem weightAt_children (v : Json) (a : Address) :
    totalOf v.weightAt ((v.getAt a .wildcard).map Prod.fst) < v.weightAt a := by
  cases h : v.at? a with
  | none => simp [getAt, weightAt, h]
  | some w =>
    have htotal : totalOf v.weightAt ((v.getAt a .wildcard).map Prod.fst) =
        totalOf size w.children := by
      apply totalOf_eq_of_getElem
      · simp [getAt, h, positions]
      · intro i _ hi
        simp [getAt, h, positions, childAt, weightAt_child h i hi]
    have hweight : v.weightAt a = 1 + totalOf size w.children := by
      simp [weightAt, h, ← size_eq_children]
    rw [htotal, hweight]
    omega

def backend (d : Document) : Backend where
  get := d.value.getAt
  kind a := ((d.value.at? a).map kind).getD (.other "foreign")
  value a := (d.value.at? a).bind scalar?
  text a := (d.value.at? a).map text
  weight := d.value.weightAt
  weight_children := d.value.weightAt_children

end Json
end PathQuery
