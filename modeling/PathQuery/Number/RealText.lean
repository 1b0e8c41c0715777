import PathQuery.Number.Shortest

/-!
# Texts of doubles

A double is written with its shortest decimal. Where the point stands and how an exponent looks is
the choice of the format that writes it, so each format is one value of `RealStyle`, kept beside the
text it belongs to.
-/

namespace PathQuery

/-- The choices a format makes for the text of a double. -/
structure RealStyle where
  /-- Which of two equally short and near decimals is written. -/
  tie : Tie
  /-- The decimal exponents written without an exponent mark, from the first up to, but not
  including, the second; `none` for all. -/
  plain : Option (Int × Int)
  /-- Whether a whole number written without a mark ends in `.0`. -/
  pointZero : Bool
  /-- Whether a positive exponent has a plus sign. -/
  plusSign : Bool
  /-- The text of an infinity, and whether it takes a sign. -/
  infinity : String
  signedInfinity : Bool
  nan : String

namespace RealStyle

def zeros (count : Nat) : List Char := List.replicate count '0'

/-- The digits with the point where the exponent puts it. -/
def plainText (style : RealStyle) (digits : List Char) (exponent : Int) : List Char :=
  if 0 ≤ exponent then
    digits ++ zeros exponent.toNat ++ (if style.pointZero then ['.', '0'] else [])
  else
    let places := (-exponent).toNat
    if places < digits.length then
      digits.take (digits.length - places) ++ '.' :: digits.drop (digits.length - places)
    else
      '0' :: '.' :: (zeros (places - digits.length) ++ digits)

/-- One digit, the others after a point, and the exponent of the first. -/
def markedText (style : RealStyle) (digits : List Char) (top : Int) : List Char :=
  let mantissa := match digits with
    | [] => []
    | [d] => [d]
    | d :: ds => d :: '.' :: ds
  let sign := if top < 0 then ['-'] else if style.plusSign then ['+'] else []
  mantissa ++ 'e' :: (sign ++ Nat.toDigits 10 top.natAbs)

def decimalText (style : RealStyle) (d : Decimal) : List Char :=
  let digits := Nat.toDigits 10 d.digits
  let top := d.exponent + digits.length - 1
  match style.plain with
  | some (first, last) =>
    if first ≤ top ∧ top < last then style.plainText digits d.exponent
    else style.markedText digits top
  | none => style.plainText digits d.exponent

def text (style : RealStyle) (x : Float) : String :=
  match Binary64.ofFloat? x with
  | some b =>
    let body := style.decimalText (b.shortest style.tie)
    String.ofList (if b.negative then '-' :: body else body)
  | none =>
    if x.isNaN then style.nan
    else if style.signedInfinity && decide (x < 0.0) then "-" ++ style.infinity
    else style.infinity

/-- Literals and diagnostics: plain from `0.0001` up to below `1e16`, always told from an integer. -/
def literal : RealStyle := ⟨.up, some (-4, 16), true, false, "inf", true, "NaN"⟩

/-- Text values: never an exponent, and no `.0`. -/
def plainValue : RealStyle := ⟨.up, none, false, false, "inf", true, "NaN"⟩

end RealStyle
end PathQuery
