import PathQuery.Eval.Comparison

/-!
# Arithmetic

Operators on integers give an integer while the exact result is one of 64 bits, and otherwise work on
reals. An operation that has no finite result fails for a reason.
-/

namespace PathQuery

/-! ### Failures -/

/-- Why an operation has no result. -/
inductive ArithmeticReason where
  | nonNumeric
  | divisionByZero
  | moduloByZero
  | notIntegers
  | notFinite
  | notArithmetic
  deriving DecidableEq, Repr

def ArithmeticReason.message : ArithmeticReason → String
  | nonNumeric => "non-numeric operand"
  | divisionByZero => "division by zero"
  | moduloByZero => "modulo by zero"
  | notIntegers => "bitwise operators need integers"
  | notFinite => "result is not finite"
  | notArithmetic => "not an arithmetic operator"

/-- An operation on operands that have been reduced to scalars where they hold one. -/
inductive Operation where
  | binary (op : BinaryOp) (lhs rhs : Item)
  | negation (operand : Item)
  deriving DecidableEq

def Operation.describe : Operation → String
  | binary op l r => l.describe ++ " " ++ op.text ++ " " ++ r.describe
  | negation a => "-" ++ a.describe

structure ArithmeticFailure where
  operation : Operation
  reason : ArithmeticReason
  deriving DecidableEq

def ArithmeticFailure.message (f : ArithmeticFailure) : String :=
  f.operation.describe ++ ": " ++ f.reason.message

/-! ### Integers -/

/-- A power whose exact value fits 64 bits. An exponent takes 32 bits; a base other than 0, 1 and -1
cannot be raised beyond the 63rd. -/
def power? (x y : Int64) : Option Int64 :=
  let e := y.toInt.toNat
  if y.toInt < 0 ∨ 0x100000000 ≤ e then none
  else if x.toInt.natAbs ≤ 1 then fitInt64? (x.toInt.pow (if e = 0 then 0 else 2 - e % 2))
  else if 63 < e then none
  else fitInt64? (x.toInt.pow e)

def realOperation (op : BinaryOp) (x y : Float) : Except ArithmeticReason Scalar :=
  let finite (r : Float) : Except ArithmeticReason Scalar :=
    if r.isFinite then .ok (.real r) else .error .notFinite
  match op with
  | .add => finite (x + y)
  | .sub => finite (x - y)
  | .mul => finite (x * y)
  | .div => if y == 0.0 then .error .divisionByZero else finite (x / y)
  | .mod => if y == 0.0 then .error .moduloByZero else finite (floatRemainder x y)
  | .pow => finite (x.pow y)
  | .bitAnd | .bitOr | .bitXor => .error .notIntegers
  | _ => .error .notArithmetic

/-- The integer if there is one, otherwise the operation on reals. -/
def integerOr (op : BinaryOp) (x y : Int64) : Option Int64 → Except ArithmeticReason Scalar
  | some i => .ok (.int i)
  | none => realOperation op (realOfInt x) (realOfInt y)

def integerOperation (op : BinaryOp) (x y : Int64) : Except ArithmeticReason Scalar :=
  match op with
  | .add => integerOr op x y (fitInt64? (x.toInt + y.toInt))
  | .sub => integerOr op x y (fitInt64? (x.toInt - y.toInt))
  | .mul => integerOr op x y (fitInt64? (x.toInt * y.toInt))
  | .div =>
    if y = 0 then .error .divisionByZero
    else if x.toInt.tmod y.toInt = 0 then integerOr op x y (fitInt64? (x.toInt.tdiv y.toInt))
    else integerOr op x y none
  | .mod =>
    if y = 0 then .error .moduloByZero
    else integerOr op x y (fitInt64? (x.toInt.tmod y.toInt))
  | .pow => integerOr op x y (power? x y)
  | .bitAnd => .ok (.int (x &&& y))
  | .bitOr => .ok (.int (x ||| y))
  | .bitXor => .ok (.int (x ^^^ y))
  | _ => .error .notArithmetic

/-! ### Items -/

/-- An operator on two scalars: on integers if both are or spell one, else on numbers. -/
def Scalar.arithmetic (op : BinaryOp) (a b : Scalar) : Except ArithmeticReason Scalar :=
  match a.integer?, b.integer? with
  | some x, some y => integerOperation op x y
  | _, _ =>
    match a.number?, b.number? with
    | some x, some y => realOperation op x y
    | _, _ => .error .nonNumeric

def Scalar.negate (a : Scalar) : Except ArithmeticReason Scalar :=
  match a.integer?, a.number? with
  | some i, _ =>
    match fitInt64? (-i.toInt) with
    | some n => .ok (.int n)
    | none => .ok (.real (-(realOfInt i)))
  | none, some r => .ok (.real (-r))
  | none, none => .error .nonNumeric

namespace Backend

def arithmetic (b : Backend) (op : BinaryOp) (x y : Item) : Except ArithmeticFailure Scalar :=
  let outcome := match b.reduce x, b.reduce y with
    | .scalar v, .scalar w => v.arithmetic op w
    | _, _ => .error .nonNumeric
  outcome.mapError fun reason => ⟨.binary op (b.reduce x) (b.reduce y), reason⟩

def negate (b : Backend) (x : Item) : Except ArithmeticFailure Scalar :=
  let outcome := match b.reduce x with
    | .scalar v => v.negate
    | .node _ => .error .nonNumeric
  outcome.mapError fun reason => ⟨.negation (b.reduce x), reason⟩

end Backend
end PathQuery
