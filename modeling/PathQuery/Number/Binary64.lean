/-!
# Doubles as exact numbers

A finite double is a sign, a significand and a power of two. This module reads those three off a
`Float`, writes them back, and answers in exact integer arithmetic the questions that have one right
answer: the nearest integer in a given direction, and the remainder of a truncating division.
-/

namespace PathQuery

/-- The finite double `(-1)^negative * significand * 2^exponent`. -/
structure Binary64 where
  negative : Bool
  significand : Nat
  exponent : Int
  deriving DecidableEq, Repr

namespace Binary64

/-! ### Bits -/

/-- The least significand of 53 bits, two to the power of 52. -/
def leastNormal : Nat := 0x10000000000000

/-- The weight of the bit of the sign, two to the power of 63. -/
def signBit : Nat := 0x8000000000000000

/-- The parts of a finite double; `none` for an infinity or a NaN. -/
def ofFloat? (x : Float) : Option Binary64 :=
  let bits := x.toBits.toNat
  let field : Nat := bits / leastNormal % 2048
  let fraction : Nat := bits % leastNormal
  let negative := decide (signBit ≤ bits)
  if field = 2047 then none
  else if field = 0 then some ⟨negative, fraction, -1074⟩
  else some ⟨negative, leastNormal + fraction, (field : Int) - 1075⟩

/-- Shifts the significand up to 53 bits, or as far as the least exponent allows. -/
def normalize (x : Binary64) : Binary64 :=
  let shift := min (52 - x.significand.log2) (x.exponent + 1074).toNat
  ⟨x.negative, x.significand * Nat.pow 2 shift, x.exponent - shift⟩

/-- The double with these parts. Exact for a significand of at most 53 bits and an exponent in range. -/
def toFloat (x : Binary64) : Float :=
  let n := x.normalize
  let field := if n.significand < leastNormal then 0 else (n.exponent + 1075).toNat
  let sign := if x.negative then signBit else 0
  Float.ofBits (UInt64.ofNat (sign + field * leastNormal + n.significand % leastNormal))

/-! ### Whole parts -/

inductive Rounding where
  | floor
  | ceiling
  /-- To the nearest integer, a half away from zero. -/
  | nearest
  deriving DecidableEq, Repr

/-- The quotient of two natural numbers rounded to an integer, for a value of the given sign. -/
def roundQuotient (mode : Rounding) (negative : Bool) (num den : Nat) : Nat :=
  let below := num / den
  let up : Bool := match mode, negative with
    | .floor, false | .ceiling, true => false
    | .floor, true | .ceiling, false => num % den != 0
    | .nearest, _ => decide (den ≤ 2 * (num % den))
  if up then below + 1 else below

def round (mode : Rounding) (x : Binary64) : Int :=
  let magnitude :=
    if 0 ≤ x.exponent then x.significand * Nat.pow 2 x.exponent.toNat
    else roundQuotient mode x.negative x.significand (Nat.pow 2 (-x.exponent).toNat)
  if x.negative then -(magnitude : Int) else magnitude

def isIntegral (x : Binary64) : Bool :=
  decide (0 ≤ x.exponent) || x.significand % Nat.pow 2 (-x.exponent).toNat == 0

/-! ### Remainder -/

/-- The remainder of the division truncated toward zero, with the sign of the dividend. It has at
most 53 bits at the smaller of the two exponents, so it is exact. -/
def remainder (x y : Binary64) : Binary64 :=
  let low := min x.exponent y.exponent
  let a := x.significand * Nat.pow 2 (x.exponent - low).toNat
  let b := y.significand * Nat.pow 2 (y.exponent - low).toNat
  ⟨x.negative, a % b, low⟩

end Binary64

/-- The remainder of `x / y` with the sign of `x`: NaN if `x` is not finite or `y` is zero or NaN,
and `x` itself for an infinite `y`. -/
def floatRemainder (x y : Float) : Float :=
  match Binary64.ofFloat? x, Binary64.ofFloat? y with
  | some a, some b => if b.significand = 0 then 0.0 / 0.0 else (a.remainder b).toFloat
  | some _, none => if y.isNaN then y else x
  | none, _ => 0.0 / 0.0

end PathQuery
