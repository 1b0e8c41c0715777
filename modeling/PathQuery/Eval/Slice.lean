import PathQuery.Number.Integer

/-!
# Slices

A slice takes every `step`-th element of a list from one bound up to, but not including, another.
Negative bounds count from the end, bounds outside the list are moved to its ends, and a negative
step walks backwards. Positions are integers of 64 bits, and a walk ends where the next one would not
fit.
-/

namespace PathQuery
namespace Slice

/-- A bound of a list of `length` elements, counted from its end if negative, moved between `low`
and `high`. -/
def bound (length low high i : Int64) : Int64 :=
  let position := if i < 0 then length + i else i
  if position < low then low else if high < position then high else position

/-- Whether position `i` stands before `stop` in the direction of a step. -/
def ahead (step i stop : Int64) : Bool :=
  if 0 < step then decide (i < stop) else decide (stop < i)

/-- How many positions there are from `i` to `stop` in the direction of a step. -/
def distance (step i stop : Int64) : Nat :=
  if 0 < step then (stop.toInt - i.toInt).toNat else (i.toInt - stop.toInt).toNat

theorem distance_lt {step i next stop : Int64} (hstep : step ≠ 0) (hahead : ahead step i stop = true)
    (hnext : fitInt64? (i.toInt + step.toInt) = some next) :
    distance step next stop < distance step i stop := by
  have hvalue := fitInt64?_eq_some_iff.mp hnext
  have hnonzero : step.toInt ≠ 0 := fun h => hstep (Int64.toInt_inj.mp h)
  simp only [ahead, distance, Int64.lt_iff_toInt_lt, Int64.toInt_zero] at hahead ⊢
  split at hahead
  · have hlt := of_decide_eq_true hahead
    rw [if_pos ‹_›, if_pos ‹_›]
    omega
  · have hlt := of_decide_eq_true hahead
    rw [if_neg ‹_›, if_neg ‹_›]
    omega

/-- The positions from `i` on, by steps of `step`, before `stop`. -/
def walk (step : Int64) (hstep : step ≠ 0) (i stop : Int64) : List Int64 :=
  if _ : ahead step i stop = true then
    match _ : fitInt64? (i.toInt + step.toInt) with
    | some next => i :: walk step hstep next stop
    -- the next position does not fit, so it is past every bound
    | none => [i]
  else []
termination_by distance step i stop
decreasing_by exact distance_lt hstep ‹_› ‹_›

/-- The positions that a slice takes of a list of `length` elements; a step of zero takes none. -/
def positions (length : Nat) (first stop step : Option Int64) : List Int64 :=
  let n := Int64.ofNat length
  let by_ := step.getD 1
  if h : by_ = 0 ∨ n = 0 then []
  else if 0 < by_ then
    walk by_ (fun h0 => h (.inl h0)) ((first.map (bound n 0 n)).getD 0)
      ((stop.map (bound n 0 n)).getD n)
  else
    walk by_ (fun h0 => h (.inl h0)) ((first.map (bound n (-1) (n - 1))).getD (n - 1))
      ((stop.map (bound n (-1) (n - 1))).getD (-1))

end Slice

def slice {α : Type} (xs : List α) (first stop step : Option Int64) : List α :=
  let elements := xs.toArray
  (Slice.positions xs.length first stop step).filterMap fun i => elements[i.toUInt64.toNat]?

end PathQuery
