/-!
# Argument counts

A function takes at least some number of arguments and, unless it is unbounded, at most another.
-/

namespace PathQuery

structure Arity where
  least : Nat
  /-- The greatest number; `none` if there is no bound. -/
  most : Option Nat
  deriving DecidableEq, Repr

namespace Arity

def exactly (n : Nat) : Arity := ⟨n, some n⟩

def between (least most : Nat) : Arity := ⟨least, some most⟩

def atLeast (n : Nat) : Arity := ⟨n, none⟩

def admits (a : Arity) (count : Nat) : Bool :=
  decide (a.least ≤ count) && match a.most with
    | none => true
    | some most => decide (count ≤ most)

def describe (a : Arity) : String :=
  match a.most with
  | none => "at least " ++ toString a.least
  | some most =>
    if a.least = most then toString most else toString a.least ++ " to " ++ toString most

end Arity

/-- A call of `name` with `count` arguments where `expected` is not met. -/
structure ArityMismatch where
  name : String
  expected : Arity
  count : Nat
  deriving DecidableEq, Repr

namespace ArityMismatch

def message (m : ArityMismatch) : String :=
  m.name ++ "() takes " ++ m.expected.describe ++ " argument(s), got " ++ toString m.count

end ArityMismatch

def Arity.check? (a : Arity) (name : String) (count : Nat) : Option ArityMismatch :=
  if a.admits count then none else some ⟨name, a, count⟩

end PathQuery
