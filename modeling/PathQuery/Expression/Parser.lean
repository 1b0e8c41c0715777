import PathQuery.Expression.Canonical

/-!
# From lexemes to terms

A recursive descent over the lexemes, with precedence climbing for the left associative operators.
Every rule says in its type that what it leaves is shorter than what it was given, so the rules end
without a bound. Calls are checked by the known functions where they are read.
-/

namespace PathQuery

/-- How a call of each name is checked: `none` for an unknown one, otherwise what tells why arguments
are refused, if they are. -/
abbrev Signatures := String → Option (List Term → Option String)

namespace Parser

/-! ### Results -/

/-- What is left after a rule that reads at least one lexeme. -/
abbrev Rest (ls : List Lexeme) := { rest : List Lexeme // rest.length < ls.length }

/-- What is left after a rule that may read nothing. -/
abbrev Tail (ls : List Lexeme) := { rest : List Lexeme // rest.length ≤ ls.length }

abbrev Parsed (α : Type) (ls : List Lexeme) := Except Fault (α × Rest ls)

abbrev Extended (α : Type) (ls : List Lexeme) := Except Fault (α × Tail ls)

/-- The byte of the next lexeme, or the end of the text. -/
def offsetOf (stop : Nat) : List Lexeme → Nat
  | [] => stop
  | l :: _ => l.offset

def unexpected (stop : Nat) (what : Expectation) (ls : List Lexeme) : Fault :=
  ⟨.expected what (ls.head?.map Lexeme.kind), offsetOf stop ls⟩

def expect (stop : Nat) (s : Symbol) (ls : List Lexeme) : Except Fault (Rest ls) :=
  match ls with
  | l :: rest =>
    if l.kind = .symbol s then .ok ⟨rest, by simp⟩ else .error (unexpected stop (.symbol s) (l :: rest))
  | [] => .error (unexpected stop (.symbol s) [])

/-! ### Pieces without recursion -/

def binaryOp? : TokenKind → Option BinaryOp
  | .symbol .or => some .or
  | .symbol .and => some .and
  | .symbol .equal => some .equal
  | .symbol .notEqual => some .notEqual
  | .symbol .same => some .same
  | .symbol .notSame => some .notSame
  | .symbol .less => some .less
  | .symbol .lessEqual => some .lessEqual
  | .symbol .greater => some .greater
  | .symbol .greaterEqual => some .greaterEqual
  | .symbol .bitOr => some .bitOr
  | .symbol .caret => some .bitXor
  | .symbol .bitAnd => some .bitAnd
  | .symbol .plus => some .add
  | .symbol .minus => some .sub
  | .symbol .star => some .mul
  | .symbol .slash => some .div
  | .symbol .percent => some .mod
  | _ => none

/-- A prefix operator put before its operand; the sign of a number literal is taken into it. -/
def applyUnary : UnaryOp → Term → Term
  | .neg, .literal (.int i) =>
    match fitInt64? (-i.toInt) with
    | some n => .literal (.int n)
    | none => .literal (.real (-(realOfInt i)))
  | .neg, .literal (.real r) => .literal (.real (-r))
  | op, t => .unary op t

/-- A primary with the segments that follow it; a path goes on, anything else starts one. -/
def extendPath : Term → List Segment → Term
  | t, [] => t
  | .path start segments, more => .path start (segments ++ more)
  | t, more => .path (.term t) more

def contextPath (segments : List Segment) : Term := .path .context segments

def nameTerm (name : String) : Term :=
  if name = "true" then .literal (.bool true)
  else if name = "false" then .literal (.bool false)
  else if name = "null" then .literal .null
  else contextPath [.child name]

def atom? : TokenKind → Option Term
  | .string s => some (.literal (.str s))
  | .integer i => some (.literal (.int i))
  | .real r => some (.literal (.real r))
  | .name n => some (nameTerm n)
  | .symbol .dollar => some (.path .root [])
  | .symbol .atSign => some (.path .current [])
  | .symbol .star => some (contextPath [.wildcard])
  | _ => none

/-- A group of one term is that term. -/
def groupTerm : List Term → Term
  | [t] => t
  | ts => .list ts

/-- The segment for a computed bracket: number and string literals select directly. -/
def bracketSegment : Term → Segment
  | .literal (.int i) => .index i
  | .literal (.str s) => .child s
  | t => .predicate t

def checkCall (check? : Signatures) (name : String) (offset : Nat) (args : List Term) :
    Except Fault (String × List Term) :=
  match check? name with
  | none => .error ⟨.unknownFunction name, offset⟩
  | some verify =>
    match verify args with
    | some reason => .error ⟨.refused reason, offset⟩
    | none => .ok (name, args)

def signedInteger (ls : List Lexeme) : Option Int64 × Tail ls :=
  match ls with
  | ⟨.integer i, _, _⟩ :: rest => (some i, ⟨rest, by simp⟩)
  | ⟨.symbol .minus, o, s⟩ :: ⟨.integer i, o', s'⟩ :: rest =>
    match fitInt64? (-i.toInt) with
    | some n => (some n, ⟨rest, by simp; omega⟩)
    | none => (none, ⟨⟨.symbol .minus, o, s⟩ :: ⟨.integer i, o', s'⟩ :: rest, Nat.le_refl _⟩)
  | ls => (none, ⟨ls, Nat.le_refl _⟩)

def colon? (ls : List Lexeme) : Option (Rest ls) :=
  match ls with
  | ⟨.symbol .colon, _, _⟩ :: rest => some ⟨rest, by simp⟩
  | _ => none

/-- A slice up to its closing bracket, or nothing if what is next is no slice. -/
def slice? (stop : Nat) (ls : List Lexeme) : Except Fault (Option (Segment × Rest ls)) :=
  let (first, afterFirst) := signedInteger ls
  match colon? afterFirst.1 with
  | none => .ok none
  | some ⟨afterColon, h⟩ =>
    let (last, afterLast) := signedInteger afterColon
    let (step, rest) : Option Int64 × Tail afterColon :=
      match colon? afterLast.1 with
      | none => (none, afterLast)
      | some ⟨afterMark, h'⟩ =>
        let (step, rest) := signedInteger afterMark
        (step, ⟨rest.1, by have := rest.2; have := afterLast.2; omega⟩)
    -- a step of zero is refused before the closing bracket is looked for
    if step = some 0 then .error ⟨.zeroStep, offsetOf stop ls⟩
    else if (rest.1.head?.map Lexeme.kind) = some (.symbol .rightBracket) then
      .ok (some (.slice first last step,
        ⟨rest.1, by have := rest.2; have := afterFirst.2; omega⟩))
    else .error (unexpected stop .endOfSlice rest.1)

/-! ### The grammar -/

section Grammar

variable (check? : Signatures) (stop : Nat)

-- A rule that reads a lexeme before it calls another is measured by the length of what it is given.
-- One that hands on all it was given adds its place in the order of the rules.
mutual

def parseList (ls : List Lexeme) : Parsed (List Term) ls := do
  let (t, ⟨rest, h⟩) ← parseExpr ls
  let (ts, ⟨rest', h'⟩) ← parseMore rest
  return (t :: ts, ⟨rest', by omega⟩)
termination_by 10 * ls.length + 7

def parseMore (ls : List Lexeme) : Extended (List Term) ls :=
  match ls with
  | ⟨.symbol .comma, _, _⟩ :: ls' => do
    let (t, ⟨rest, h⟩) ← parseExpr ls'
    let (ts, ⟨rest', h'⟩) ← parseMore rest
    return (t :: ts, ⟨rest', by simp only [List.length_cons]; omega⟩)
  | ls => .ok ([], ⟨ls, Nat.le_refl _⟩)
termination_by 10 * ls.length

/-- A whole expression: an operand, or a choice between two expressions. -/
def parseExpr (ls : List Lexeme) : Parsed Term ls := do
  let (test, ⟨rest, h⟩) ← parseBinary 1 ls
  match rest, h with
  | ⟨.symbol .question, _, _⟩ :: ls', h => do
    let (yes, ⟨r1, h1⟩) ← parseExpr ls'
    let ⟨r2, h2⟩ ← expect stop .colon r1
    let (no, ⟨r3, h3⟩) ← parseExpr r2
    return (.ternary test yes no, ⟨r3, by simp only [List.length_cons] at h; omega⟩)
  | rest, h => return (test, ⟨rest, h⟩)
termination_by 10 * ls.length + 6
decreasing_by
  all_goals try simp only [List.length_cons] at *
  all_goals omega

/-- An operand and the operators after it that bind at least as tight as `least`. -/
def parseBinary (least : Nat) (ls : List Lexeme) : Parsed Term ls := do
  let (lhs, ⟨rest, h⟩) ← parseUnary ls
  let (t, ⟨rest', h'⟩) ← climb least lhs rest
  return (t, ⟨rest', by omega⟩)
termination_by 10 * ls.length + 5

/-- Goes on from a left operand while the next operator binds at least as tight as `least`. -/
def climb (least : Nat) (lhs : Term) (ls : List Lexeme) : Extended Term ls :=
  match ls with
  | [] => .ok (lhs, ⟨[], Nat.le_refl _⟩)
  | l :: ls' =>
    match binaryOp? l.kind with
    | none => .ok (lhs, ⟨l :: ls', Nat.le_refl _⟩)
    | some op =>
      if op.precedence < least then .ok (lhs, ⟨l :: ls', Nat.le_refl _⟩)
      else do
        -- the right operand leaves operators of this precedence alone, so chains group to the left
        let (rhs, ⟨rest, h⟩) ← parseBinary (op.precedence + 1) ls'
        let (t, ⟨rest', h'⟩) ← climb least (.binary op lhs rhs) rest
        return (t, ⟨rest', by simp only [List.length_cons]; omega⟩)
termination_by 10 * ls.length

/-- Prefix operators and what they are put before. -/
def parseUnary (ls : List Lexeme) : Parsed Term ls :=
  match ls with
  | ⟨.symbol .bang, _, _⟩ :: ls' => do
    let (t, ⟨rest, h⟩) ← parseUnary ls'
    return (applyUnary .not t, ⟨rest, by simp only [List.length_cons]; omega⟩)
  | ⟨.symbol .minus, _, _⟩ :: ls' => do
    let (t, ⟨rest, h⟩) ← parseUnary ls'
    return (applyUnary .neg t, ⟨rest, by simp only [List.length_cons]; omega⟩)
  | ls => parsePower ls
termination_by 10 * ls.length + 4

/-- A primary with its segments, perhaps raised to a power. -/
def parsePower (ls : List Lexeme) : Parsed Term ls := do
  let (base, ⟨rest, h⟩) ← parsePostfix ls
  match rest, h with
  | ⟨.symbol .starStar, _, _⟩ :: ls', h => do
    -- the exponent may have a sign and a power of its own, so powers group to the right
    let (exponent, ⟨rest', h'⟩) ← parseUnary ls'
    return (.binary .pow base exponent, ⟨rest', by simp only [List.length_cons] at h; omega⟩)
  | rest, h => return (base, ⟨rest, h⟩)
termination_by 10 * ls.length + 3
decreasing_by
  all_goals try simp only [List.length_cons] at *
  all_goals omega

def parsePostfix (ls : List Lexeme) : Parsed Term ls := do
  let (t, ⟨rest, h⟩) ← parsePrimary ls
  let (segments, ⟨rest', h'⟩) ← parseSegments rest
  return (extendPath t segments, ⟨rest', by omega⟩)
termination_by 10 * ls.length + 2

/-- The segments at the head, as long as no blank stands before them. -/
def parseSegments (ls : List Lexeme) : Extended (List Segment) ls :=
  match ls with
  | [] => .ok ([], ⟨[], Nat.le_refl _⟩)
  | l :: ls' =>
    if l.spaced then .ok ([], ⟨l :: ls', Nat.le_refl _⟩)
    else do
      match ← parseSegment (l :: ls') with
      | none => return ([], ⟨l :: ls', Nat.le_refl _⟩)
      | some (s, ⟨rest, h⟩) => do
        let (ss, ⟨rest', h'⟩) ← parseSegments rest
        return (s :: ss, ⟨rest', by omega⟩)
termination_by 10 * ls.length + 1
decreasing_by
  all_goals try simp only [List.length_cons] at *
  all_goals omega

def parsePrimary (ls : List Lexeme) : Parsed Term ls :=
  match ls with
  | [] => .error (unexpected stop .expression [])
  | ⟨.function name, offset, _⟩ :: ls' => do
    let ((name, args), ⟨rest, h⟩) ← parseCall name offset ls'
    return (.call name args, ⟨rest, by simp only [List.length_cons]; omega⟩)
  | ⟨.symbol .leftParen, _, _⟩ :: ls' => do
    let (ts, ⟨r1, h1⟩) ← parseList ls'
    let ⟨r2, h2⟩ ← expect stop .rightParen r1
    return (groupTerm ts, ⟨r2, by simp only [List.length_cons]; omega⟩)
  | l :: ls' =>
    match atom? l.kind with
    | some t => .ok (t, ⟨ls', by simp⟩)
    | none => do
      match ← parseSegment (l :: ls') with
      | some (s, rest) => return (contextPath [s], rest)
      | none => throw (unexpected stop .expression (l :: ls'))
termination_by 10 * ls.length + 1

def parseCall (name : String) (offset : Nat) (ls : List Lexeme) :
    Parsed (String × List Term) ls :=
  match ls with
  | ⟨.symbol .rightParen, _, _⟩ :: ls' => do
    let call ← checkCall check? name offset []
    return (call, ⟨ls', by simp⟩)
  | ls => do
    let (args, ⟨r1, h1⟩) ← parseList ls
    let ⟨r2, h2⟩ ← expect stop .rightParen r1
    let call ← checkCall check? name offset args
    return (call, ⟨r2, by omega⟩)
termination_by 10 * ls.length + 8

/-- One segment, or nothing if the next lexeme cannot begin one. -/
def parseSegment (ls : List Lexeme) : Except Fault (Option (Segment × Rest ls)) :=
  match ls with
  | ⟨.symbol .dot, _, _⟩ :: ls' => do
    let (s, ⟨rest, h⟩) ← parseDotted ls'
    return some (s, ⟨rest, by simp only [List.length_cons]; omega⟩)
  | ⟨.symbol .dotDot, _, _⟩ :: ls' =>
    match ls' with
    | ⟨.symbol .star, _, _⟩ :: rest =>
      return some (.recursiveWildcard, ⟨rest, by simp only [List.length_cons]; omega⟩)
    | ⟨.symbol .leftBracket, _, _⟩ :: ls'' => do
      let (s, ⟨rest, h⟩) ← parseBracket ls''
      return some (.recursive s, ⟨rest, by simp only [List.length_cons]; omega⟩)
    | ls' => do
      let (s, ⟨rest, h⟩) ← parseDotted ls'
      return some (.recursive s, ⟨rest, by simp only [List.length_cons]; omega⟩)
  | ⟨.symbol .dotDotStar, _, _⟩ :: ls' =>
    return some (.recursiveWildcard, ⟨ls', by simp⟩)
  | ⟨.symbol .leftBracket, _, _⟩ :: ls' => do
    let (s, ⟨rest, h⟩) ← parseBracket ls'
    return some (s, ⟨rest, by simp only [List.length_cons]; omega⟩)
  | _ => return none
termination_by 10 * ls.length

def parseDotted (ls : List Lexeme) : Parsed Segment ls :=
  match ls with
  | ⟨.name n, _, _⟩ :: rest => .ok (.child n, ⟨rest, by simp⟩)
  | ⟨.string n, _, _⟩ :: rest => .ok (.child n, ⟨rest, by simp⟩)
  | ⟨.symbol .star, _, _⟩ :: rest => .ok (.wildcard, ⟨rest, by simp⟩)
  | ⟨.integer i, _, _⟩ :: rest => .ok (.index i, ⟨rest, by simp⟩)
  | ⟨.function name, offset, _⟩ :: ls' => do
    let ((name, args), ⟨rest, h⟩) ← parseCall name offset ls'
    return (.call name args, ⟨rest, by simp only [List.length_cons]; omega⟩)
  | ls => .error (unexpected stop .nameAfterDot ls)
termination_by 10 * ls.length + 9

def parseBracket (ls : List Lexeme) : Parsed Segment ls :=
  match ls with
  | ⟨.symbol .star, _, _⟩ :: ⟨.symbol .rightBracket, _, _⟩ :: rest =>
    .ok (.anyIndex, ⟨rest, by simp only [List.length_cons]; omega⟩)
  | ⟨.integer i, _, _⟩ :: ⟨.symbol .rightBracket, _, _⟩ :: rest =>
    .ok (.index i, ⟨rest, by simp only [List.length_cons]; omega⟩)
  | ⟨.string s, _, _⟩ :: ⟨.symbol .rightBracket, _, _⟩ :: rest =>
    .ok (.child s, ⟨rest, by simp only [List.length_cons]; omega⟩)
  | ⟨.symbol .question, _, _⟩ :: ls' => do
    let (t, ⟨r1, h1⟩) ← parseExpr ls'
    let ⟨r2, h2⟩ ← expect stop .rightBracket r1
    return (.filter t, ⟨r2, by simp only [List.length_cons]; omega⟩)
  | ls => do
    match ← slice? stop ls with
    | some (s, ⟨r1, h1⟩) => do
      let ⟨r2, h2⟩ ← expect stop .rightBracket r1
      return (s, ⟨r2, by omega⟩)
    | none => do
      let (t, ⟨r1, h1⟩) ← parseExpr ls
      let ⟨r2, h2⟩ ← expect stop .rightBracket r1
      return (bracketSegment t, ⟨r2, by omega⟩)
termination_by 10 * ls.length + 9

end

end Grammar

/-- A whole text: terms with commas between them, and nothing after them. -/
def parseAll (check? : Signatures) (stop : Nat) (ls : List Lexeme) : Except Fault (List Term) :=
  if ls.isEmpty then .error ⟨.empty, 0⟩
  else do
    let (terms, rest) ← parseList check? stop ls
    match rest.1 with
    | [] => return terms
    | l :: _ => throw ⟨.trailing l.kind, l.offset⟩

end Parser

def parse (check? : Signatures) (source : String) : Except SyntaxError (List Term) := do
  let tokens ← tokenize source
  (Parser.parseAll check? (byteLength source.toList) (Lexeme.ofTokens false tokens)).mapError
    (SyntaxError.ofFault source.toList)

end PathQuery
