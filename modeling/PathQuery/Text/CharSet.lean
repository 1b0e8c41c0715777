/-!
# Sets of characters

Properties of characters are published as tables of code point ranges. A `CharSet` keeps such a table
as the code points at which membership changes, and finds a character's place among them by halving.
-/

namespace PathQuery

/-- A set of characters: membership changes at each listed code point, in rising order, starting
outside the set. -/
structure CharSet where
  changes : Array Nat

namespace CharSet

/-- How many of the listed code points from `low` up to `high` are at most `n`, counted from the
start of the list. -/
def rank (s : CharSet) (n low high : Nat) : Nat :=
  if low < high then
    let middle := (low + high) / 2
    if s.changes.getD middle 0 ≤ n then s.rank n (middle + 1) high else s.rank n low middle
  else low
termination_by high - low

def contains (s : CharSet) (c : Char) : Bool :=
  s.rank c.toNat 0 s.changes.size % 2 == 1

end CharSet
end PathQuery
