import PathQuery.Expression.SyntaxError

/-!
# From text to tokens

The scanner reads one token at the head of what is left, and says how many characters it covers
beyond the first; the rest is scanned in turn. Faults carry the byte they are found at.
-/

namespace PathQuery
namespace Lexer

/-! ### Names -/

/-- A character that can begin a name; a backslash quotes the character after it. -/
def isNameStart (c : Char) : Bool := c = '_' || c = '\\' || isAlphabetic c

def isNameChar (c : Char) : Bool :=
  c = '_' || c = '-' || c = '\\' || isAlphabetic c || isNumeric c

/-- The longest name at the head of a text that starts at byte `offset`, without its backslashes,
and the number of characters it covers. -/
def nameBody (offset : Nat) : List Char → Except Fault (List Char × Nat)
  | [] => .ok ([], 0)
  | '\\' :: [] => .error ⟨.danglingEscape, offset⟩
  | '\\' :: c :: cs => do
    let (name, count) ← nameBody (offset + 1 + c.utf8Size) cs
    return (c :: name, count + 2)
  | c :: cs =>
    if isNameChar c then do
      let (name, count) ← nameBody (offset + c.utf8Size) cs
      return (c :: name, count + 1)
    else .ok ([], 0)

/-! ### Strings -/

def hexValue? (c : Char) : Option Nat :=
  if '0' ≤ c ∧ c ≤ '9' then some (c.toNat - '0'.toNat)
  else if 'a' ≤ c ∧ c ≤ 'f' then some (c.toNat - 'a'.toNat + 10)
  else if 'A' ≤ c ∧ c ≤ 'F' then some (c.toNat - 'A'.toNat + 10)
  else none

def hexNumber? (cs : List Char) : Option Nat :=
  cs.foldlM (fun n c => (hexValue? c).map (n * 16 + ·)) 0

/-- The character named by the four characters of an escape: hexadecimal digits, of which the first
may be a plus sign instead, that name a character. -/
def escapedChar? (cs : List Char) : Option Char := do
  let digits := match cs with
    | '+' :: ds => ds
    | ds => ds
  let n ← hexNumber? digits
  if n.isValidChar then some (Char.ofNat n) else none

def plainEscape (c : Char) : Char :=
  if c = 'n' then '\n' else if c = 't' then '\t' else if c = 'r' then '\r' else c

/-- What follows the opening `quote` of a string: its value, and the number of characters it covers
with the closing quote. `start` is the byte of the opening quote, `offset` that of the text. -/
def stringBody (quote : Char) (start : Nat) : Nat → List Char → Except Fault (List Char × Nat)
  | _, [] => .error ⟨.unterminatedString, start⟩
  | offset, '\\' :: cs =>
    match cs with
    | [] => .error ⟨.unterminatedString, start⟩
    | 'u' :: a :: b :: c :: d :: rest =>
      match escapedChar? [a, b, c, d] with
      | none => .error ⟨.invalidEscape, offset + 2⟩
      | some value => do
        let (text, count) ← stringBody quote start (offset + 6) rest
        return (value :: text, count + 6)
    | 'u' :: _ => .error ⟨.invalidEscape, offset + 2⟩
    | e :: rest => do
      let (text, count) ← stringBody quote start (offset + 1 + e.utf8Size) rest
      return (plainEscape e :: text, count + 2)
  | offset, c :: cs =>
    if c = quote then .ok ([], 1)
    else do
      let (text, count) ← stringBody quote start (offset + c.utf8Size) cs
      return (c :: text, count + 1)

/-! ### Numbers -/

def fractionLength : List Char → Nat
  | '.' :: cs =>
    let digits := cs.takeWhile Char.isDigit
    if digits.isEmpty then 0 else 1 + digits.length
  | _ => 0

def isSign (c : Char) : Bool := c = '+' || c = '-'

/-- The characters of an exponent: its mark, an optional sign and at least one digit. -/
def exponentLength : List Char → Nat
  | [] => 0
  | c :: cs =>
    if c = 'e' ∨ c = 'E' then
      let sign := if cs.head?.any isSign then 1 else 0
      let digits := (cs.drop sign).takeWhile Char.isDigit
      if digits.isEmpty then 0 else 1 + sign + digits.length
    else 0

/-- The number at the head of a text that begins with a digit, and the characters it covers. Without
fraction and exponent it is an integer if it fits, and otherwise the nearest real. -/
def number (cs : List Char) : TokenKind × Nat :=
  let whole := (cs.takeWhile Char.isDigit).length
  let fraction := fractionLength (cs.drop whole)
  let exponent := exponentLength (cs.drop (whole + fraction))
  let count := whole + fraction + exponent
  let text := cs.take count
  let real : TokenKind := .real (((Decimal.read? text).map Decimal.toFloat).getD (1.0 / 0.0))
  if fraction = 0 ∧ exponent = 0 then
    (((readInt64? text).map TokenKind.integer).getD real, count)
  else (real, count)

/-! ### Tokens -/

/-- The first symbol of the table that `cs` begins with, and its spelling. -/
def symbol? (cs : List Char) : Option (List Char × Symbol) :=
  Symbol.spellings.find? fun entry => entry.1.isPrefixOf cs

/-- The token at the head of `c :: cs`, which starts at byte `offset`: its kind, and the number of
characters it covers beyond `c`. -/
def scan (offset : Nat) (c : Char) (cs : List Char) : Except Fault (TokenKind × Nat) :=
  if isBlank c then .ok (.whitespace, (cs.takeWhile isBlank).length)
  else if c = '"' ∨ c = '\'' then do
    let (text, count) ← stringBody c offset (offset + 1) cs
    return (.string (String.ofList text), count)
  else if c.isDigit then
    let (kind, count) := number (c :: cs)
    .ok (kind, count - 1)
  else if isNameStart c then do
    let (name, count) ← nameBody offset (c :: cs)
    -- a parenthesis right after a name belongs to its token, one after a blank does not
    if cs[count - 1]? = some '(' then return (.function (String.ofList name), count)
    else return (.name (String.ofList name), count - 1)
  else
    match symbol? (c :: cs) with
    | some (spelling, s) => .ok (.symbol s, spelling.length - 1)
    | none => .error ⟨.unexpectedCharacter c, offset⟩

def tokensFrom (offset : Nat) : List Char → Except Fault (List Token)
  | [] => .ok []
  | c :: cs => do
    let (kind, extra) ← scan offset c cs
    let text := c :: cs.take extra
    let rest ← tokensFrom (offset + byteLength text) (cs.drop extra)
    return ⟨kind, offset, String.ofList text⟩ :: rest
termination_by cs => cs.length
decreasing_by simp only [List.length_drop, List.length_cons]; omega

end Lexer

def tokenize (source : String) : Except SyntaxError (List Token) :=
  (Lexer.tokensFrom 0 source.toList).mapError (SyntaxError.ofFault source.toList)

end PathQuery
