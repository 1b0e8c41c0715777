import PathQuery.Number.Binary64

/-!
# Decimal numerals

A numeral stands for `digits * 10^exponent`. This module reads numerals from text, gives the double
nearest to a numeral, and reads the spellings of infinities and NaN that a double's own text uses.
-/

namespace PathQuery

/-- The number `digits * 10^exponent`. -/
structure Decimal where
  digits : Nat
  exponent : Int
  deriving DecidableEq, Repr

namespace Decimal

/-- The number of decimal digits of `n`; zero has one. -/
def width (n : Nat) : Nat := (Nat.toDigits 10 n).length

def digitsValue (ds : List Char) : Nat :=
  ds.foldl (fun n c => n * 10 + (c.toNat - '0'.toNat)) 0

/-- The nearest double, ties to even. A numeral above every double gives infinity, and one far below
the least double gives zero before any power of ten is formed. -/
def toFloat (d : Decimal) : Float :=
  let top := width d.digits + d.exponent
  if d.digits = 0 || top < -400 then 0.0
  else if 400 < top then 1.0 / 0.0
  else Float.ofScientific d.digits (d.exponent < 0) d.exponent.natAbs

/-! ### Reading -/

/-- An optional sign, as whether it is a minus, and what follows it. -/
def splitSign : List Char → Bool × List Char
  | '-' :: cs => (true, cs)
  | '+' :: cs => (false, cs)
  | cs => (false, cs)

/-- An exponent mark with its digits, or nothing at all. -/
def readExponent? : List Char → Option Int
  | [] => some 0
  | c :: cs =>
    if c = 'e' ∨ c = 'E' then
      let (negative, ds) := splitSign cs
      if ds.isEmpty || !ds.all Char.isDigit then none
      else some (if negative then -(digitsValue ds : Int) else digitsValue ds)
    else none

/-- An unsigned numeral: digits with an optional point, at least one digit on either side of it, and
an optional exponent. -/
def read? (cs : List Char) : Option Decimal :=
  let whole := cs.takeWhile Char.isDigit
  let afterWhole := cs.dropWhile Char.isDigit
  let (fraction, tail) := match afterWhole with
    | '.' :: ds => (ds.takeWhile Char.isDigit, ds.dropWhile Char.isDigit)
    | _ => ([], afterWhole)
  if whole.isEmpty && fraction.isEmpty then none
  else (readExponent? tail).map fun e =>
    ⟨digitsValue (whole ++ fraction), e - fraction.length⟩

end Decimal

/-- The double a text spells: a signed numeral, or a spelling of infinity or NaN in any case. -/
def readFloat? (cs : List Char) : Option Float :=
  let (negative, body) := Decimal.splitSign cs
  let word := String.ofList (body.map Char.toLower)
  let magnitude : Option Float :=
    if word = "inf" ∨ word = "infinity" then some (1.0 / 0.0)
    else if word = "nan" then some (0.0 / 0.0)
    else (Decimal.read? body).map Decimal.toFloat
  magnitude.map fun x => if negative then -x else x

end PathQuery
