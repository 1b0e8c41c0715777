import Mathlib
import PathQuery.Expression.Parser

/-!
# The shape of terms

Not every tree can come from a text: the sign of a number belongs to its literal, a path that starts
from a term has segments, a list has two terms or more, and so on. `Term.WellFormed` collects these
rules. What the parser returns obeys them, and a canonical text can be read back only because of
them.
-/

namespace PathQuery

/-- A value that a literal can have: no numeral is the least integer or NaN. -/
def Scalar.WellFormed : Scalar → Prop
  | .int i => i ≠ Int64.minValue
  | .real r => r.isNaN = false
  | _ => True

namespace Term

def isPath : Term → Bool
  | .path _ _ => true
  | _ => false

/-- Whether the term is the literal of a number, which takes a sign before it into itself. -/
def isNumber : Term → Bool
  | .literal (.int _) | .literal (.real _) => true
  | _ => false

/-- Whether the term is a literal that selects directly in brackets. -/
def isKey : Term → Bool
  | .literal (.int _) | .literal (.str _) => true
  | _ => false

end Term

/-- Whether the start alone is no path, so that a segment must follow. -/
def Start.isBare : Start → Bool
  | .context | .term _ => true
  | _ => false

/-- Whether the segment can follow two points. -/
def Segment.isSelector : Segment → Bool
  | .wildcard | .recursive _ | .recursiveWildcard => false
  | _ => true

/-- A call that is allowed: the function is known and takes these arguments. -/
def Signatures.Allows (check? : Signatures) (name : String) (args : List Term) : Prop :=
  ∃ verify, check? name = some verify ∧ verify args = none

/-- Whether arguments are taken is seen from their number. -/
def Signatures.CountsOnly (check? : Signatures) : Prop :=
  ∀ (name : String) (args args' : List Term), args'.length = args.length →
    check?.Allows name args → check?.Allows name args'

def boundWellFormed : Option Int64 → Prop
  | none => True
  | some i => i ≠ Int64.minValue

section

variable (check? : Signatures)

mutual

/-- A term as the parser makes them. -/
def Term.WellFormed : Term → Prop
  | .literal v => v.WellFormed
  | .path start segments =>
    start.WellFormed ∧ segmentsWellFormed segments ∧ (start.isBare = true → segments ≠ [])
  | .call name args => check?.Allows name args ∧ termsWellFormed args
  | .unary op t => t.WellFormed ∧ (op = .neg → t.isNumber = false)
  | .binary _ l r => l.WellFormed ∧ r.WellFormed
  | .ternary a b c => a.WellFormed ∧ b.WellFormed ∧ c.WellFormed
  | .list ts => 2 ≤ ts.length ∧ termsWellFormed ts

/-- A start as the parser makes them: a path is not started from a path. -/
def Start.WellFormed : Start → Prop
  | .term t => t.WellFormed ∧ t.isPath = false
  | _ => True

def Segment.WellFormed : Segment → Prop
  | .index i => i ≠ Int64.minValue
  | .recursive inner => inner.WellFormed ∧ inner.isSelector = true
  | .slice first stop step =>
    boundWellFormed first ∧ boundWellFormed stop ∧ boundWellFormed step ∧ step ≠ some 0
  | .filter t => t.WellFormed
  | .predicate t => t.WellFormed ∧ t.isKey = false
  | .call name args => check?.Allows name args ∧ termsWellFormed args
  | _ => True

def termsWellFormed : List Term → Prop
  | [] => True
  | t :: ts => t.WellFormed ∧ termsWellFormed ts

def segmentsWellFormed : List Segment → Prop
  | [] => True
  | s :: ss => s.WellFormed ∧ segmentsWellFormed ss

end

end

end PathQuery
