/-!
# Places in a text

A place is the number of UTF-8 bytes before it. People are told lines and columns instead, which
count line feeds and characters.
-/

namespace PathQuery

def byteLength : List Char → Nat
  | [] => 0
  | c :: cs => c.utf8Size + byteLength cs

@[simp] theorem byteLength_nil : byteLength [] = 0 := rfl

@[simp] theorem byteLength_cons (c : Char) (cs : List Char) :
    byteLength (c :: cs) = c.utf8Size + byteLength cs := rfl

@[simp] theorem byteLength_append (a b : List Char) :
    byteLength (a ++ b) = byteLength a + byteLength b := by
  induction a with
  | nil => simp
  | cons c cs ih => simp [ih, Nat.add_assoc]

/-- What stands from byte `offset` on; `none` inside a character or past the end. -/
def fromByte? : Nat → List Char → Option (List Char)
  | 0, cs => some cs
  | _ + 1, [] => none
  | n + 1, c :: cs => if c.utf8Size ≤ n + 1 then fromByte? (n + 1 - c.utf8Size) cs else none
termination_by _ cs => cs.length

/-- What stands before byte `offset`, whole characters only. -/
def beforeByte : Nat → List Char → List Char
  | 0, _ => []
  | _ + 1, [] => []
  | n + 1, c :: cs => if c.utf8Size ≤ n + 1 then c :: beforeByte (n + 1 - c.utf8Size) cs else []
termination_by _ cs => cs.length

/-- The line and column just after a run of characters, both counted from one. -/
def lineColumn (before : List Char) : Nat × Nat :=
  (before.count '\n' + 1, (before.reverse.takeWhile (· != '\n')).length + 1)

end PathQuery
