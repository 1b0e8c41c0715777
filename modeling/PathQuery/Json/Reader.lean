import PathQuery.Json.Basic
import PathQuery.Json.Raw

/-!
# Reading JSON documents

A text as written becomes a value: numerals become numbers, escapes characters, and fields are put in
the order of their keys, a repeated key keeping its last value. The result is ordered at every level.

A numeral with a fraction, an exponent or too many digits becomes a real in two steps: the leading
digits that fit 64 bits are taken as an integer and the rest only counted, and that integer, as a
double, is multiplied or divided by a power of ten. A result beyond every double is refused.
-/

namespace PathQuery

/-! ### Numbers -/

namespace Numeral

/-- Appends digits to `n` while the number fits 64 bits; the number, and how many were appended. -/
def appendDigits (n : Nat) : List Char → Nat × Nat
  | [] => (n, 0)
  | d :: ds =>
    let next := n * 10 + (d.toNat - '0'.toNat)
    if next < UInt64.size then
      let (m, taken) := appendDigits next ds
      (m, taken + 1)
    else (n, 0)

/-- `f * 10^exponent`, with one multiplication or division by a power of ten that is a double;
`none` if the result is infinite. -/
def scale? (f : Float) (exponent : Int) : Option Float :=
  if exponent.natAbs ≤ 308 then
    let power := Float.ofScientific 1 false exponent.natAbs
    let r := if 0 ≤ exponent then f * power else f / power
    if r.isInf then none else some r
  else if f == 0.0 then some f
  else if 0 ≤ exponent then none
  else scale? (f / Float.ofScientific 1 false 308) (exponent + 308)
termination_by (-exponent).toNat
decreasing_by omega

/-- The value of the digits of an exponent; `none` if it does not fit a signed 32 bit number. -/
def exponentValue? (ds : List Char) : Option Nat :=
  let n := Decimal.digitsValue ds
  if n < 0x80000000 then some n else none

/-- The magnitude of the numeral as a real; `none` beyond every double. -/
def magnitude? (n : Numeral) : Option Float :=
  let (whole, wholeTaken) := appendDigits 0 n.whole
  let (significand, fractionTaken) := appendDigits whole (n.fraction.getD [])
  let base : Int := (n.whole.length : Int) - wholeTaken - fractionTaken
  let f := Float.ofNat significand
  match n.exponent with
  | none => scale? f base
  | some (negative, ds) =>
    match exponentValue? ds with
    | some e => scale? f (if negative then base - e else base + e)
    | none => if significand ≠ 0 ∧ !negative then none else some 0.0

/-- The number a numeral stands for: an integer if it is written as one, fits 64 bits and is not
minus zero. -/
def toNumber? (n : Numeral) : Option JsonNumber :=
  let value := Decimal.digitsValue n.whole
  if n.fraction.isNone && n.exponent.isNone &&
      (if n.negative then decide (0 < value ∧ value ≤ 0x8000000000000000) else decide (value < UInt64.size)) then
    some (.int (if n.negative then -(value : Int) else value))
  else n.magnitude?.map fun f => .real (if n.negative then -f else f)

end Numeral

/-! ### Strings -/

/-- The characters of a string: two escapes that are halves of one character are joined, and a half
alone is refused. -/
def StringPiece.decode? : List StringPiece → Option (List Char)
  | [] => some []
  | .char c :: ps => (decode? ps).map (c :: ·)
  | .unit n :: ps =>
    if n < 0xd800 ∨ 0xe000 ≤ n then (decode? ps).map (Char.ofNat n :: ·)
    else if 0xdc00 ≤ n then none
    else
      match ps with
      | .unit m :: rest =>
        if 0xdc00 ≤ m ∧ m < 0xe000 then
          (decode? rest).map (Char.ofNat (0x10000 + (n - 0xd800) * 0x400 + (m - 0xdc00)) :: ·)
        else none
      | _ => none

/-! ### Values -/

namespace Json

mutual

def ofRaw? : RawJson → Option Json
  | .null => some .null
  | .bool b => some (.bool b)
  | .number n => n.toNumber?.map .number
  | .string ps => (StringPiece.decode? ps).map fun cs => .string (String.ofList cs)
  | .array vs => (ofRawItems? vs).map .array
  | .object fs => (ofRawFields? [] fs).map .object

def ofRawItems? : List RawJson → Option (List Json)
  | [] => some []
  | v :: vs => do
    let w ← ofRaw? v
    let ws ← ofRawItems? vs
    return w :: ws

def ofRawFields? (before : List (String × Json)) :
    List (List StringPiece × RawJson) → Option (List (String × Json))
  | [] => some before
  | (key, v) :: fs => do
    let k ← StringPiece.decode? key
    let w ← ofRaw? v
    ofRawFields? (insertField (String.ofList k) w before) fs

end

mutual

theorem ordered_of_ofRaw? : ∀ {v : RawJson} {w : Json}, ofRaw? v = some w → w.Ordered
  | .null, w, h => by
    simp only [ofRaw?, Option.some.injEq] at h
    subst h
    trivial
  | .bool b, w, h => by
    simp only [ofRaw?, Option.some.injEq] at h
    subst h
    trivial
  | .number n, w, h => by
    simp only [ofRaw?, Option.map_eq_some_iff] at h
    obtain ⟨_, _, rfl⟩ := h
    trivial
  | .string ps, w, h => by
    simp only [ofRaw?, Option.map_eq_some_iff] at h
    obtain ⟨_, _, rfl⟩ := h
    trivial
  | .array vs, w, h => by
    simp only [ofRaw?, Option.map_eq_some_iff] at h
    obtain ⟨ws, hw, rfl⟩ := h
    exact orderedItems_of_ofRawItems? hw
  | .object fs, w, h => by
    simp only [ofRaw?, Option.map_eq_some_iff] at h
    obtain ⟨ws, hw, rfl⟩ := h
    exact ordered_of_ofRawFields? (show KeysOrdered [] from List.Pairwise.nil) trivial hw

theorem orderedItems_of_ofRawItems? :
    ∀ {vs : List RawJson} {ws : List Json}, ofRawItems? vs = some ws → OrderedItems ws
  | [], ws, h => by
    simp only [ofRawItems?, Option.some.injEq] at h
    subst h
    trivial
  | v :: vs, ws, h => by
    simp only [ofRawItems?, Option.bind_eq_bind, Option.bind_eq_some_iff, Option.pure_def,
      Option.some.injEq] at h
    obtain ⟨w, hw, ws', hws, rfl⟩ := h
    exact ⟨ordered_of_ofRaw? hw, orderedItems_of_ofRawItems? hws⟩

theorem ordered_of_ofRawFields? :
    ∀ {before : List (String × Json)} {fs : List (List StringPiece × RawJson)}
      {ws : List (String × Json)}, KeysOrdered before → OrderedFields before →
      ofRawFields? before fs = some ws → KeysOrdered ws ∧ OrderedFields ws
  | before, [], ws, hk, ho, h => by
    simp only [ofRawFields?, Option.some.injEq] at h
    subst h
    exact ⟨hk, ho⟩
  | before, (key, v) :: fs, ws, hk, ho, h => by
    simp only [ofRawFields?, Option.bind_eq_bind, Option.bind_eq_some_iff] at h
    obtain ⟨k, _, w, hw, h⟩ := h
    exact ordered_of_ofRawFields? (keysOrdered_insertField hk)
      (orderedFields_insertField (ordered_of_ofRaw? hw) ho) h

end

def Document.maxDepth : Nat := 127

/-- Reads a document; `none` if the text is malformed. -/
def Document.read? (text : String) : Option Document :=
  match RawJson.read? Document.maxDepth text.toList with
  | none => none
  | some raw =>
    match h : ofRaw? raw with
    | none => none
    | some value => some ⟨value, ordered_of_ofRaw? h⟩

end Json
end PathQuery
