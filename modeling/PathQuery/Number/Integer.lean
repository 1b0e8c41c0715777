import PathQuery.Number.Decimal

/-!
# Integers of 64 bits

Integers are signed and have 64 bits. An exact result that does not fit is no integer; nothing wraps.
-/

namespace PathQuery

def fitInt64? (n : Int) : Option Int64 :=
  if -0x8000000000000000 ≤ n ∧ n < 0x8000000000000000 then some (Int64.ofInt n) else none

theorem fitInt64?_eq_some_iff {n : Int} {i : Int64} : fitInt64? n = some i ↔ i.toInt = n := by
  unfold fitInt64?
  constructor
  · intro h
    split at h
    · cases h
      exact Int64.toInt_ofInt_of_le (by omega) (by omega)
    · cases h
  · intro h
    have hlow := i.le_toInt
    have hhigh := i.toInt_lt
    rw [if_pos (by omega), ← h, Int64.ofInt_toInt]

def IsInt64 (n : Int) : Prop := -0x8000000000000000 ≤ n ∧ n < 0x8000000000000000

instance (n : Int) : Decidable (IsInt64 n) := inferInstanceAs (Decidable (_ ∧ _))

theorem isInt64_toInt (i : Int64) : IsInt64 i.toInt := ⟨i.le_toInt, i.toInt_lt⟩

theorem exists_fitInt64?_iff {n : Int} : (∃ i, fitInt64? n = some i) ↔ IsInt64 n := by
  unfold fitInt64?
  constructor
  · rintro ⟨i, hi⟩
    split at hi
    · next hfits => exact hfits
    · cases hi
  · exact fun h => ⟨_, if_pos h⟩

def intChars (i : Int64) : List Char :=
  match i.toInt with
  | .ofNat n => Nat.toDigits 10 n
  | .negSucc n => '-' :: Nat.toDigits 10 (n + 1)

def intText (i : Int64) : String := String.ofList (intChars i)

def realOfInt (i : Int64) : Float := Float.ofInt i.toInt

/-- Reads an optional sign and decimal digits, at least one. -/
def readInt64? (cs : List Char) : Option Int64 :=
  let (negative, ds) := Decimal.splitSign cs
  if ds.isEmpty || !ds.all Char.isDigit then none
  else
    let n := Decimal.digitsValue ds
    fitInt64? (if negative then -(n : Int) else n)

end PathQuery
