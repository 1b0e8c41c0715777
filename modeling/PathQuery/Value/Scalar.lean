import PathQuery.Number.Integer
import PathQuery.Number.RealText
import PathQuery.Text.Quoted

/-!
# Scalars

The values an expression can compute or write down: null, booleans, integers, reals and texts.
-/

namespace PathQuery

/-- A value without parts. -/
inductive Scalar where
  | null
  | bool (b : Bool)
  | int (i : Int64)
  | real (r : Float)
  | str (s : String)
  deriving DecidableEq

namespace Scalar

def boolText (b : Bool) : String := if b then "true" else "false"

/-- The scalar as a text; null has none. -/
def text? : Scalar → Option String
  | null => none
  | bool b => some (boolText b)
  | int i => some (intText i)
  | real r => some (RealStyle.plainValue.text r)
  | str s => some s

/-- The scalar as diagnostics show it: its kind, and its value between parentheses. -/
def describe : Scalar → String
  | null => "Null"
  | bool b => "Bool(" ++ boolText b ++ ")"
  | int i => "Int(" ++ intText i ++ ")"
  | real r => "Real(" ++ RealStyle.literal.text r ++ ")"
  | str s => "Str(" ++ showText s ++ ")"

end Scalar
end PathQuery
