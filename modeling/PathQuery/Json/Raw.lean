/-!
# JSON as it is written

The tree of a JSON text before its numbers and strings are given a meaning: numerals keep their
digits, strings their escapes, and objects their fields in the order of the text. Reading follows the
grammar alone, to a bounded depth of arrays and objects.
-/

namespace PathQuery

structure Numeral where
  negative : Bool
  whole : List Char
  fraction : Option (List Char)
  /-- Whether the exponent is negative, and its digits, if there is one. -/
  exponent : Option (Bool × List Char)
  deriving DecidableEq, Repr

/-- A piece of a string: a character, or the number of a `\u` escape. -/
inductive StringPiece where
  | char (c : Char)
  | unit (n : Nat)
  deriving DecidableEq, Repr

inductive RawJson where
  | null
  | bool (b : Bool)
  | number (n : Numeral)
  | string (pieces : List StringPiece)
  | array (items : List RawJson)
  | object (fields : List (List StringPiece × RawJson))

namespace RawJson

/-! ### Blanks and words -/

def isSpace (c : Char) : Bool := c = ' ' || c = '\n' || c = '\t' || c = '\r'

def skipSpace (cs : List Char) : List Char := cs.dropWhile isSpace

theorem length_skipSpace_le (cs : List Char) : (skipSpace cs).length ≤ cs.length :=
  (List.dropWhile_sublist isSpace).length_le

/-- What follows the given word, if the text begins with it. -/
def afterWord? (word : List Char) (cs : List Char) : Option (List Char) :=
  if word.isPrefixOf cs then some (cs.drop word.length) else none

/-! ### Numerals -/

/-- Digits after a point; nothing if there is no point, and a failure if no digit follows it. -/
def readFraction (cs : List Char) : Option (Option (List Char) × List Char) :=
  match cs with
  | '.' :: ds =>
    if (ds.takeWhile Char.isDigit).isEmpty then none
    else some (some (ds.takeWhile Char.isDigit), ds.dropWhile Char.isDigit)
  | _ => some (none, cs)

/-- An exponent; nothing if there is no mark, and a failure if no digit follows it. -/
def readExponent (cs : List Char) : Option (Option (Bool × List Char) × List Char) :=
  match cs with
  | c :: rest =>
    if c = 'e' ∨ c = 'E' then
      let (negative, ds) := match rest with
        | '-' :: ds => (true, ds)
        | '+' :: ds => (false, ds)
        | ds => (false, ds)
      if (ds.takeWhile Char.isDigit).isEmpty then none
      else some (some (negative, ds.takeWhile Char.isDigit), ds.dropWhile Char.isDigit)
    else some (none, cs)
  | [] => some (none, [])

/-- The digits before the point: a zero alone, or digits that do not begin with one. -/
def readWhole (cs : List Char) : Option (List Char × List Char) :=
  match cs with
  | '0' :: rest => some (['0'], rest)
  | c :: rest =>
    if c.isDigit then some (c :: rest.takeWhile Char.isDigit, rest.dropWhile Char.isDigit) else none
  | [] => none

def readNumeral (cs : List Char) : Option (Numeral × List Char) := do
  let (negative, unsigned) := match cs with
    | '-' :: rest => (true, rest)
    | rest => (false, rest)
  let (whole, r1) ← readWhole unsigned
  let (fraction, r2) ← readFraction r1
  let (exponent, r3) ← readExponent r2
  return (⟨negative, whole, fraction, exponent⟩, r3)

/-! ### Strings -/

def hexUnit? (cs : List Char) : Option Nat :=
  cs.foldlM (fun n c =>
    if '0' ≤ c ∧ c ≤ '9' then some (n * 16 + (c.toNat - '0'.toNat))
    else if 'a' ≤ c ∧ c ≤ 'f' then some (n * 16 + (c.toNat - 'a'.toNat + 10))
    else if 'A' ≤ c ∧ c ≤ 'F' then some (n * 16 + (c.toNat - 'A'.toNat + 10))
    else none) 0

def shortEscape? (c : Char) : Option Char :=
  if c = '"' ∨ c = '\\' ∨ c = '/' then some c
  else if c = 'b' then some '\x08'
  else if c = 'f' then some '\x0c'
  else if c = 'n' then some '\n'
  else if c = 'r' then some '\r'
  else if c = 't' then some '\t'
  else none

/-- What follows the opening quote of a string, and what is left after the closing one. -/
def readString : List Char → Option (List StringPiece × List Char)
  | [] => none
  | '\\' :: cs =>
    match cs with
    | [] => none
    | 'u' :: a :: b :: c :: d :: rest => do
      let n ← hexUnit? [a, b, c, d]
      let (pieces, left) ← readString rest
      return (.unit n :: pieces, left)
    | e :: rest => do
      let c ← shortEscape? e
      let (pieces, left) ← readString rest
      return (.char c :: pieces, left)
  | c :: cs =>
    if c = '"' then some ([], cs)
    else if c.toNat < 32 then none
    else do
      let (pieces, left) ← readString cs
      return (.char c :: pieces, left)

/-! ### Values -/

/-- Runs a rule and keeps its result only if it leaves less than it was given. -/
def shorter? {α : Type} (cs : List Char) (r : Option (α × List Char)) :
    Option (α × { rest : List Char // rest.length < cs.length }) :=
  r.bind fun (a, rest) => if h : rest.length < cs.length then some (a, ⟨rest, h⟩) else none

mutual

/-- A value at the head of a text, with at most `depth` arrays and objects inside each other. -/
def readValue (depth : Nat) (cs : List Char) :
    Option (RawJson × { rest : List Char // rest.length < cs.length }) :=
  let here := skipSpace cs
  have hs : here.length ≤ cs.length := length_skipSpace_le cs
  match h : here with
  | [] => none
  | c :: rest =>
    have hr : rest.length < cs.length := by
      simp only [List.length_cons] at hs
      omega
    if c = '\x7b' then
      match depth with
      | 0 => none
      | depth + 1 =>
        match hb : skipSpace rest with
        | '\x7d' :: left =>
          some (.object [], ⟨left, by
            have := length_skipSpace_le rest
            rw [hb, List.length_cons] at this
            omega⟩)
        | _ => do
          let (fields, ⟨left, hl⟩) ← readFields depth rest
          return (.object fields, ⟨left, by omega⟩)
    else if c = '[' then
      match depth with
      | 0 => none
      | depth + 1 =>
        match hb : skipSpace rest with
        | ']' :: left =>
          some (.array [], ⟨left, by
            have := length_skipSpace_le rest
            rw [hb, List.length_cons] at this
            omega⟩)
        | _ => do
          let (items, ⟨left, hl⟩) ← readItems depth rest
          return (.array items, ⟨left, by omega⟩)
    else if c = '"' then
      shorter? cs ((readString rest).map fun (pieces, left) => (.string pieces, left))
    else if c = 'n' then
      shorter? cs ((afterWord? "null".toList here).map fun left => (.null, left))
    else if c = 't' then
      shorter? cs ((afterWord? "true".toList here).map fun left => (.bool true, left))
    else if c = 'f' then
      shorter? cs ((afterWord? "false".toList here).map fun left => (.bool false, left))
    else
      shorter? cs ((readNumeral here).map fun (n, left) => (.number n, left))
termination_by 2 * cs.length

/-- The elements of an array up to its closing bracket, at least one. -/
def readItems (depth : Nat) (cs : List Char) :
    Option (List RawJson × { rest : List Char // rest.length < cs.length }) := do
  let (v, ⟨r1, h1⟩) ← readValue depth cs
  have hs := length_skipSpace_le r1
  match h : skipSpace r1 with
  | ',' :: r2 =>
    have h2 : r2.length < r1.length := by
      rw [h, List.length_cons] at hs
      omega
    let (vs, ⟨r3, h3⟩) ← readItems depth r2
    return (v :: vs, ⟨r3, by omega⟩)
  | ']' :: r2 =>
    return ([v], ⟨r2, by rw [h, List.length_cons] at hs; omega⟩)
  | _ => none
termination_by 2 * cs.length + 1

/-- The fields of an object up to its closing brace, at least one. -/
def readFields (depth : Nat) (cs : List Char) :
    Option (List (List StringPiece × RawJson) ×
      { rest : List Char // rest.length < cs.length }) := do
  have hk := length_skipSpace_le cs
  match hc : skipSpace cs with
  | '"' :: r0 =>
    have h0 : r0.length < cs.length := by
      rw [hc, List.length_cons] at hk
      omega
    let (key, ⟨r1, h1⟩) ← shorter? cs (readString r0)
    have hs1 := length_skipSpace_le r1
    match hd : skipSpace r1 with
    | ':' :: r2 =>
      have h2 : r2.length < r1.length := by
        rw [hd, List.length_cons] at hs1
        omega
      let (v, ⟨r3, h3⟩) ← readValue depth r2
      have hs3 := length_skipSpace_le r3
      match he : skipSpace r3 with
      | ',' :: r4 =>
        have h4 : r4.length < r3.length := by
          rw [he, List.length_cons] at hs3
          omega
        let (fs, ⟨r5, h5⟩) ← readFields depth r4
        return ((key, v) :: fs, ⟨r5, by omega⟩)
      | '\x7d' :: r4 =>
        return ([(key, v)], ⟨r4, by rw [he, List.length_cons] at hs3; omega⟩)
      | _ => none
    | _ => none
  | _ => none
termination_by 2 * cs.length + 1

end

/-- A whole text: one value with blanks around it. -/
def read? (depth : Nat) (cs : List Char) : Option RawJson := do
  let (v, rest) ← readValue depth cs
  if (skipSpace rest.1).isEmpty then some v else none

end RawJson
end PathQuery
