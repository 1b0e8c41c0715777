import PathQuery.Number.Decimal

/-!
# The shortest decimal of a double

Of the decimals that read back as a given double, those with the fewest digits are kept, and of
these the one nearest to it; a tie between two is settled by a rule of the caller. All comparisons
are made in exact natural number arithmetic on the interval of reals that round to the double.
-/

namespace PathQuery

/-- Which of two equally near decimals is taken. -/
inductive Tie where
  | up
  | toEven
  deriving DecidableEq, Repr

namespace Binary64

/-- The interval of reals that round to a positive double, and the double itself, over one
denominator. The ends belong to it exactly when the significand is even. -/
structure Interval where
  low : Nat
  value : Nat
  high : Nat
  den : Nat
  closed : Bool

/-- Half a unit on either side, but a quarter below a power of two that has a smaller neighbour. -/
def interval (x : Binary64) : Interval :=
  let below := if x.significand = leastNormal ∧ -1074 < x.exponent then 1 else 2
  let up := (x.exponent - 2).toNat
  let down := (2 - x.exponent).toNat
  { low := (4 * x.significand - below) * Nat.pow 2 up
    value := 4 * x.significand * Nat.pow 2 up
    high := (4 * x.significand + 2) * Nat.pow 2 up
    den := Nat.pow 2 down
    closed := x.significand % 2 == 0 }

def Interval.contains (i : Interval) (num den : Nat) : Bool :=
  if i.closed then i.low * den ≤ num * i.den && num * i.den ≤ i.high * den
  else i.low * den < num * i.den && num * i.den < i.high * den

/-- The power of ten at or below `num / den`, as an exponent, found from a first guess. -/
def decimalExponent (num den : Nat) : Int :=
  -- the logarithm of two to base ten is just under `30103 / 100000`
  let guess : Int := (((num.log2 : Int) - den.log2) * 30103) / 100000 - 1
  let reaches (k : Int) : Bool := den * Nat.pow 10 k.toNat ≤ num * Nat.pow 10 (-k).toNat
  if reaches (guess + 2) then guess + 2
  else if reaches (guess + 1) then guess + 1
  else if reaches guess then guess
  else guess - 1

/-- Tries the two neighbours of the value on the grid of multiples of `10^step`. -/
def gridPoint? (i : Interval) (tie : Tie) (step : Int) : Option Nat :=
  let num := i.value * Nat.pow 10 (-step).toNat
  let den := i.den * Nat.pow 10 step.toNat
  let below := num / den
  let hit (n : Nat) : Bool := i.contains (n * Nat.pow 10 step.toNat) (Nat.pow 10 (-step).toNat)
  match hit below, hit (below + 1) with
  | true, true =>
    -- both neighbours read back as the double: the nearer one, or as the tie rule says
    let twice := 2 * (num % den)
    let upper := match tie with
      | .up => decide (den ≤ twice)
      | .toEven => decide (den < twice) || (den == twice && below % 2 == 1)
    some (if upper then below + 1 else below)
  | true, false => some below
  | false, true => some (below + 1)
  | false, false => none

def stripZeros : Nat → Decimal → Decimal
  | 0, d => d
  | fuel + 1, d =>
    if d.digits ≠ 0 ∧ d.digits % 10 = 0 then stripZeros fuel ⟨d.digits / 10, d.exponent + 1⟩ else d

/-- The decimal with the fewest digits among those tried: grids of `count` digits, then finer ones. -/
def shortestFrom (i : Interval) (tie : Tie) (top : Int) : Nat → Nat → Decimal
  | count, 0 => ⟨i.value / i.den, count⟩
  | count, tries + 1 =>
    let step := top + 1 - count
    match gridPoint? i tie step with
    | some n => stripZeros 20 ⟨n, step⟩
    | none => shortestFrom i tie top (count + 1) tries

/-- The shortest decimal that reads back as the magnitude of `x`. Seventeen digits always suffice. -/
def shortest (tie : Tie) (x : Binary64) : Decimal :=
  if x.significand = 0 then ⟨0, 0⟩
  else
    let i := x.interval
    shortestFrom i tie (decimalExponent i.value i.den) 1 18

end Binary64
end PathQuery
