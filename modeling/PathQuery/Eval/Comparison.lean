import PathQuery.Tree.Backend
import PathQuery.Expression.Term

/-!
# Coercion and comparison

Every scalar can be asked for a truth value, and some for a number, an integer or a text. The loose
order tries these in turn; the strict equality asks for the same kind and the same value. Nodes that
hold no scalar are true and equal to themselves alone.
-/

namespace PathQuery

/-! ### Scalars -/

namespace Scalar

/-- Null, false, zero, NaN, the empty text and the text `false` are false. -/
def truth : Scalar → Bool
  | null => false
  | bool b => b
  | int i => i != 0
  | real r => r != 0.0 && !r.isNaN
  | str s => !(s.isEmpty || s = "false")

/-- The number a scalar is, or that its text spells if it is finite. -/
def number? : Scalar → Option Float
  | int i => some (realOfInt i)
  | real r => some r
  | str s => (readFloat? (trimBlank s.toList)).filter Float.isFinite
  | _ => none

/-- The integer a scalar is, or that its text spells. -/
def integer? : Scalar → Option Int64
  | int i => some i
  | str s => readInt64? (trimBlank s.toList)
  | _ => none

def isBool : Scalar → Bool
  | bool _ => true
  | _ => false

end Scalar

/-- Two numbers no further apart than the tolerance are equal; NaN is not ordered. -/
def compareReals (tolerance x y : Float) : Option Ordering :=
  if (x - y).abs ≤ tolerance then some .eq
  else if x < y then some .lt
  else if x == y then some .eq
  else if y < x then some .gt
  else none

def compareBools : Bool → Bool → Ordering
  | false, true => .lt
  | true, false => .gt
  | _, _ => .eq

/-- Texts are ordered by their characters. -/
def compareTexts (a b : String) : Ordering :=
  if a < b then .lt else if a = b then .eq else .gt

def compareInts (a b : Int64) : Ordering :=
  if a.toInt < b.toInt then .lt else if a.toInt = b.toInt then .eq else .gt

/-- The loose order of scalars: null equals null alone; then integers, numbers within the tolerance,
truth values if either is a boolean, and texts. -/
def Scalar.compare (tolerance : Float) : Scalar → Scalar → Option Ordering
  | .null, .null => some .eq
  | .null, _ => none
  | _, .null => none
  | .int a, .int b => some (compareInts a b)
  | a, b =>
    match a.number?, b.number? with
    | some x, some y => compareReals tolerance x y
    | _, _ =>
      if a.isBool || b.isBool then some (compareBools a.truth b.truth)
      else some (compareTexts (a.text?.getD "") (b.text?.getD ""))

/-- Same kind and same value; an integer and a real of the same value are the same number. -/
def Scalar.same : Scalar → Scalar → Bool
  | .null, .null => true
  | .bool a, .bool b => a == b
  | .int a, .int b => a == b
  | .int a, .real b => realOfInt a == b
  | .real a, .int b => realOfInt b == a
  | .real a, .real b => a == b
  | .str a, .str b => a == b
  | _, _ => false

/-! ### Items -/

namespace Backend

def truth (b : Backend) (item : Item) : Bool :=
  match b.reduce item with
  | .scalar v => v.truth
  | .node _ => true

def number? (b : Backend) (item : Item) : Option Float :=
  match b.reduce item with
  | .scalar v => v.number?
  | .node _ => none

def textOf? (b : Backend) (item : Item) : Option String :=
  match b.reduce item with
  | .scalar v => v.text?
  | .node a => b.text a

/-- The loose order of items; `none` if they are neither equal nor ordered. -/
def compare (b : Backend) (tolerance : Float) (x y : Item) : Option Ordering :=
  match b.reduce x, b.reduce y with
  | .node p, .node q => if p = q then some .eq else none
  | .scalar v, .scalar w => v.compare tolerance w
  | _, _ => none

def same (b : Backend) (x y : Item) : Bool :=
  match b.reduce x, b.reduce y with
  | .node p, .node q => p == q
  | .scalar v, .scalar w => v.same w
  | _, _ => false

/-- What a comparison operator says of two items. Other operators say no. -/
def holds (b : Backend) (tolerance : Float) (op : BinaryOp) (x y : Item) : Bool :=
  let order := b.compare tolerance x y
  match op with
  | .same => b.same x y
  | .notSame => !b.same x y
  | .equal => order == some .eq
  | .notEqual => order != some .eq
  | .less => order == some .lt
  | .lessEqual => order == some .lt || order == some .eq
  | .greater => order == some .gt
  | .greaterEqual => order == some .gt || order == some .eq
  | _ => false

end Backend
end PathQuery
