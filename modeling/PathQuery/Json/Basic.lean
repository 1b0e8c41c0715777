import PathQuery.Number.Integer
import PathQuery.Tree.Weight

/-!
# JSON values

Values of JSON documents. An object lists its fields in the order of their keys, each key once; this
is the invariant `Json.Ordered`, and a `Document` is a value that has it at every level.
-/

namespace PathQuery

/-- A number: an integer of at most 64 bits, with a sign or without, or a finite real. -/
inductive JsonNumber where
  | int (n : Int)
  | real (r : Float)
  deriving DecidableEq

inductive Json where
  | null
  | bool (b : Bool)
  | number (n : JsonNumber)
  | string (s : String)
  | array (items : List Json)
  | object (fields : List (String × Json))

namespace Json

instance : Inhabited Json := ⟨null⟩

/-! ### Children -/

/-- The values directly inside a value, in document order. -/
def children : Json → List Json
  | array items => items
  | object fields => fields.map Prod.snd
  | _ => []

/-- The value at the end of a walk that goes to a child by its position at each step. -/
def at? (v : Json) : List Nat → Option Json
  | [] => some v
  | i :: is => v.children[i]?.bind (at? · is)

@[simp] theorem at?_nil (v : Json) : v.at? [] = some v := rfl

theorem at?_append (v : Json) (a b : List Nat) : v.at? (a ++ b) = (v.at? a).bind (at? · b) := by
  induction a generalizing v with
  | nil => rfl
  | cons i is ih =>
    simp only [List.cons_append, at?]
    cases v.children[i]? with
    | none => rfl
    | some w => exact ih w

/-! ### Size -/

mutual

/-- The number of values at and inside a value. -/
def size : Json → Nat
  | array items => 1 + sizeItems items
  | object fields => 1 + sizeFields fields
  | _ => 1

def sizeItems : List Json → Nat
  | [] => 0
  | v :: vs => v.size + sizeItems vs

def sizeFields : List (String × Json) → Nat
  | [] => 0
  | (_, v) :: fs => v.size + sizeFields fs

end

theorem sizeItems_eq (vs : List Json) : sizeItems vs = totalOf size vs := by
  induction vs with
  | nil => rfl
  | cons v vs ih => simp [sizeItems, ih]

theorem sizeFields_eq (fs : List (String × Json)) :
    sizeFields fs = totalOf size (fs.map Prod.snd) := by
  induction fs with
  | nil => rfl
  | cons f fs ih => cases f; simp [sizeFields, ih]

theorem size_eq_children (v : Json) : v.size = 1 + totalOf size v.children := by
  cases v with
  | array items => simp [size, children, sizeItems_eq]
  | object fields => simp [size, children, sizeFields_eq]
  | _ => rfl

/-! ### Order of fields -/

/-- Puts a field at its place among ordered fields, over one of the same key. -/
def insertField (key : String) (value : Json) : List (String × Json) → List (String × Json)
  | [] => [(key, value)]
  | (k, v) :: fs =>
    if key < k then (key, value) :: (k, v) :: fs
    else if key = k then (key, value) :: fs
    else (k, v) :: insertField key value fs

def KeysOrdered (fs : List (String × Json)) : Prop := (fs.map Prod.fst).Pairwise (· < ·)

mutual

/-- At every level the keys are in rising order. -/
def Ordered : Json → Prop
  | array items => OrderedItems items
  | object fields => KeysOrdered fields ∧ OrderedFields fields
  | _ => True

def OrderedItems : List Json → Prop
  | [] => True
  | v :: vs => v.Ordered ∧ OrderedItems vs

def OrderedFields : List (String × Json) → Prop
  | [] => True
  | (_, v) :: fs => v.Ordered ∧ OrderedFields fs

end

theorem mem_keys_insertField {key k : String} {value : Json} {fs : List (String × Json)}
    (h : k ∈ (insertField key value fs).map Prod.fst) : k = key ∨ k ∈ fs.map Prod.fst := by
  induction fs with
  | nil => simpa [insertField] using h
  | cons f fs ih =>
    obtain ⟨k', v'⟩ := f
    simp only [insertField] at h
    split at h
    · simpa using h
    · split at h
      · simp only [List.map_cons, List.mem_cons] at h ⊢
        rcases h with h | h
        · exact .inl h
        · exact .inr (.inr h)
      · simp only [List.map_cons, List.mem_cons] at h ⊢
        rcases h with h | h
        · exact .inr (.inl h)
        · rcases ih h with h | h
          · exact .inl h
          · exact .inr (.inr h)

theorem keysOrdered_insertField {key : String} {value : Json} {fs : List (String × Json)}
    (h : KeysOrdered fs) : KeysOrdered (insertField key value fs) := by
  induction fs with
  | nil => simp [insertField, KeysOrdered]
  | cons f fs ih =>
    obtain ⟨k, v⟩ := f
    simp only [KeysOrdered, List.map_cons, List.pairwise_cons] at h
    simp only [insertField]
    split
    · rename_i hlt
      simp only [KeysOrdered, List.map_cons, List.pairwise_cons, List.mem_cons]
      refine ⟨?_, h.1, h.2⟩
      rintro k' (rfl | hk')
      · exact hlt
      · exact String.lt_trans hlt (h.1 k' hk')
    · split
      · rename_i heq
        simp only [KeysOrdered, List.map_cons, List.pairwise_cons]
        exact ⟨heq ▸ h.1, h.2⟩
      · rename_i hlt hne
        simp only [KeysOrdered, List.map_cons, List.pairwise_cons]
        refine ⟨?_, ih h.2⟩
        intro k' hk'
        rcases mem_keys_insertField hk' with rfl | hk'
        · by_cases hkk : k < k'
          · exact hkk
          · exact absurd (String.le_antisymm (String.not_lt.1 hkk) (String.not_lt.1 hlt)) hne
        · exact h.1 k' hk'

theorem orderedFields_insertField {key : String} {value : Json} {fs : List (String × Json)}
    (hv : value.Ordered) (h : OrderedFields fs) : OrderedFields (insertField key value fs) := by
  induction fs with
  | nil => exact ⟨hv, trivial⟩
  | cons f fs ih =>
    obtain ⟨k, v⟩ := f
    simp only [insertField]
    split
    · exact ⟨hv, h⟩
    · split
      · exact ⟨hv, h.2⟩
      · exact ⟨h.1, ih h.2⟩

/-- A value whose objects are ordered at every level. -/
structure Document where
  value : Json
  ordered : value.Ordered

instance : Inhabited Document := ⟨null, trivial⟩

end Json
end PathQuery
