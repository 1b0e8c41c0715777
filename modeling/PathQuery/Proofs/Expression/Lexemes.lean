import PathQuery.Proofs.Expression.Numerals
import PathQuery.Proofs.Expression.Shape

/-!
# The lexemes of canonical texts

`Term.signs` lists the lexemes that the canonical text of a term is made of, and `Term.scans` shows
that the text is scanned into exactly these, whatever follows it in a canonical text.
-/

namespace PathQuery

/-! ### Lexemes of literals and names -/

def Symbol.sign (s : Symbol) (spaced : Bool) : Sign := (.symbol s, spaced)

/-- The lexemes of an integer: the minus sign is one of its own. -/
def intSigns (spaced : Bool) (i : Int64) : List Sign :=
  match i.toInt with
  | .ofNat n => [(.integer (Int64.ofInt n), spaced)]
  | .negSucc n => [Symbol.minus.sign spaced, (.integer (Int64.ofInt (n + 1 : Nat)), false)]

def Binary64.reread (x : Binary64) : Float :=
  numeralReal (RealStyle.literal.decimalText (x.shortest .up))

/-- The lexemes of a real: a numeral, or the name of an infinity or NaN, with a sign before it. -/
def realSigns (spaced : Bool) (r : Float) : List Sign :=
  match Binary64.ofFloat? r with
  | some x =>
    if x.negative then [Symbol.minus.sign spaced, (.real x.reread, false)]
    else [(.real x.reread, spaced)]
  | none =>
    if r.isNaN then [(.name "NaN", spaced)]
    else if r < 0.0 then [Symbol.minus.sign spaced, (.name "inf", false)]
    else [(.name "inf", spaced)]

def Scalar.signs (spaced : Bool) : Scalar → List Sign
  | .null => [(.name "null", spaced)]
  | .bool b => [(.name (Scalar.boolText b), spaced)]
  | .int i => intSigns spaced i
  | .real r => realSigns spaced r
  | .str s => [(.string s, spaced)]

def UnaryOp.symbol : UnaryOp → Symbol
  | .not => .bang
  | .neg => .minus

def BinaryOp.symbol : BinaryOp → Symbol
  | .or => .or
  | .and => .and
  | .equal => .equal
  | .notEqual => .notEqual
  | .same => .same
  | .notSame => .notSame
  | .less => .less
  | .lessEqual => .lessEqual
  | .greater => .greater
  | .greaterEqual => .greaterEqual
  | .bitOr => .bitOr
  | .bitXor => .caret
  | .bitAnd => .bitAnd
  | .add => .plus
  | .sub => .minus
  | .mul => .star
  | .div => .slash
  | .mod => .percent
  | .pow => .starStar

theorem UnaryOp.text_symbol (op : UnaryOp) : op.symbol.text = op.text := by cases op <;> rfl

theorem BinaryOp.text_symbol (op : BinaryOp) : op.symbol.text = op.text := by cases op <;> rfl

/-! ### Lexemes of terms -/

/-- A selector after a point, or at the head of a path. -/
def dottedSigns (leading spaced : Bool) (kind : TokenKind) : List Sign :=
  if leading then [(kind, spaced)] else [Symbol.dot.sign spaced, (kind, false)]

def boundSigns : Option Int64 → List Sign
  | none => []
  | some i => intSigns false i

def stepSigns : Option Int64 → List Sign
  | none => []
  | some i => Symbol.colon.sign false :: intSigns false i

mutual

/-- The lexemes of the canonical text of a term. -/
def Term.signs (spaced : Bool) : Term → List Sign
  | .literal v => v.signs spaced
  | .path start segments =>
    start.signs spaced ++ segmentsSigns start.isLeading (start.isLeading && spaced) segments
  | .call name args =>
    (.function name, spaced) :: (termsSigns args ++ [Symbol.rightParen.sign false])
  | .unary op t => op.symbol.sign spaced :: t.signs false
  | .binary op l r =>
    let left :=
      if op = .pow && l.isSigned then
        Symbol.leftParen.sign false :: (l.signs false ++ [Symbol.rightParen.sign false])
      else l.signs false
    Symbol.leftParen.sign spaced ::
      (left ++ op.symbol.sign true :: (r.signs true ++ [Symbol.rightParen.sign false]))
  | .ternary a b c =>
    Symbol.leftParen.sign spaced ::
      (a.signs false ++ Symbol.question.sign true ::
        (b.signs true ++ Symbol.colon.sign true ::
          (c.signs true ++ [Symbol.rightParen.sign false])))
  | .list ts =>
    Symbol.leftParen.sign spaced :: (termsSigns ts ++ [Symbol.rightParen.sign false])

def Start.signs (spaced : Bool) : Start → List Sign
  | .root => [Symbol.dollar.sign spaced]
  | .current => [Symbol.atSign.sign spaced]
  | .context => []
  | .term t => Symbol.leftParen.sign spaced :: (t.signs false ++ [Symbol.rightParen.sign false])

def Segment.signs (leading spaced : Bool) : Segment → List Sign
  | .child name =>
    if isPlainName name then dottedSigns leading spaced (.name name)
    else [Symbol.leftBracket.sign spaced, (.string name, false), Symbol.rightBracket.sign false]
  | .index i =>
    Symbol.leftBracket.sign spaced :: (intSigns false i ++ [Symbol.rightBracket.sign false])
  | .anyIndex =>
    [Symbol.leftBracket.sign spaced, Symbol.star.sign false, Symbol.rightBracket.sign false]
  | .wildcard => dottedSigns leading spaced (.symbol .star)
  | .recursive inner => Symbol.dotDot.sign spaced :: inner.signs true false
  | .recursiveWildcard => [Symbol.dotDotStar.sign spaced]
  | .slice first stop step =>
    Symbol.leftBracket.sign spaced ::
      (boundSigns first ++ Symbol.colon.sign false ::
        (boundSigns stop ++ (stepSigns step ++ [Symbol.rightBracket.sign false])))
  | .filter t =>
    Symbol.leftBracket.sign spaced :: Symbol.question.sign false :: Symbol.leftParen.sign false ::
      (t.signs false ++ [Symbol.rightParen.sign false, Symbol.rightBracket.sign false])
  | .predicate t =>
    Symbol.leftBracket.sign spaced :: (t.signs false ++ [Symbol.rightBracket.sign false])
  | .call name args =>
    dottedSigns leading spaced (.function name) ++
      (termsSigns args ++ [Symbol.rightParen.sign false])

def segmentsSigns (leading spaced : Bool) : List Segment → List Sign
  | [] => []
  | s :: ss => s.signs leading spaced ++ segmentsSigns false false ss

def termsSigns : List Term → List Sign
  | [] => []
  | t :: ts => t.signs false ++ moreTermsSigns ts

def moreTermsSigns : List Term → List Sign
  | [] => []
  | t :: ts => Symbol.comma.sign false :: (t.signs true ++ moreTermsSigns ts)

end

/-! ### Pieces of canonical texts -/

/-- The characters that may follow a term in a canonical text. -/
def closers : List Char := [' ', ')', ']', ',']

/-- What may follow a term in a canonical text. -/
def EndsTerm (rest : List Char) : Prop := ∀ d ∈ rest.head?, d ∈ closers

def EndsSegment (rest : List Char) : Prop := ∀ d ∈ rest.head?, d ∈ closers ++ ['.', '[']

def EndsInteger (rest : List Char) : Prop := ∀ d ∈ rest.head?, d ∈ closers ++ [':']

theorem EndsTerm.segment {rest : List Char} (h : EndsTerm rest) : EndsSegment rest :=
  fun d hd => List.mem_append_left _ (h d hd)

theorem EndsTerm.integer {rest : List Char} (h : EndsTerm rest) : EndsInteger rest :=
  fun d hd => List.mem_append_left _ (h d hd)

theorem EndsTerm.cons {c : Char} (cs : List Char) (hc : c ∈ closers) : EndsTerm (c :: cs) := by
  intro d hd
  rw [List.head?_cons, Option.mem_some] at hd
  exact hd ▸ hc

theorem EndsInteger.cons {c : Char} (cs : List Char) (hc : c ∈ closers ++ [':']) :
    EndsInteger (c :: cs) := by
  intro d hd
  rw [List.head?_cons, Option.mem_some] at hd
  exact hd ▸ hc

theorem EndsInteger.numeral {rest : List Char} (h : EndsInteger rest) :
    Lexer.EndsNumeral rest := by
  intro d hd
  have hmem := h d hd
  simp only [closers, List.cons_append, List.nil_append, List.mem_cons, List.not_mem_nil,
    or_false] at hmem
  rcases hmem with rfl | rfl | rfl | rfl | rfl <;> decide

theorem EndsSegment.cases {rest : List Char} (h : EndsSegment rest) {d : Char}
    (hd : d ∈ rest.head?) : d = ' ' ∨ d = ')' ∨ d = ']' ∨ d = ',' ∨ d = '.' ∨ d = '[' := by
  have hmem := h d hd
  simpa only [closers, List.cons_append, List.nil_append, List.mem_cons, List.not_mem_nil,
    or_false] using hmem

theorem EndsSegment.name {rest : List Char} (h : EndsSegment rest) :
    ∀ d ∈ rest.head?, Lexer.isNameChar d = false ∧ d ≠ '(' := by
  intro d hd
  rcases h.cases hd with rfl | rfl | rfl | rfl | rfl | rfl <;> decide

theorem EndsSegment.star {rest : List Char} (h : EndsSegment rest) :
    ∀ d ∈ rest.head?, d ∉ Symbol.star.longer := by
  intro d hd
  rcases h.cases hd with rfl | rfl | rfl | rfl | rfl | rfl <;> decide

namespace Lexer.Scans

variable {spaced : Bool} {ks : List Sign} {rest : List Char}

theorem space (h : Scans true rest ks) : Scans spaced (' ' :: rest) ks :=
  .blank (by decide) h

theorem symbol (s : Symbol) (hrest : ∀ d ∈ rest.head?, d ∉ s.longer) (h : Scans false rest ks) :
    Scans spaced (s.text.toList ++ rest) (s.sign spaced :: ks) := by
  obtain ⟨c, tail, htext⟩ : ∃ c tail, s.text.toList = c :: tail := by
    cases s <;> exact ⟨_, _, rfl⟩
  rw [htext]
  exact piece (fun offset => scan_symbol offset s htext hrest) (by simp) h

/-- A symbol that is no beginning of another one. -/
theorem mark (s : Symbol) (hs : s.longer = []) (h : Scans false rest ks) :
    Scans spaced (s.text.toList ++ rest) (s.sign spaced :: ks) := by
  refine symbol s (fun d _ => ?_) h
  rw [hs]
  exact List.not_mem_nil

theorem name {n : String} (hn : isNameText n.toList = true)
    (hrest : ∀ d ∈ rest.head?, isNameChar d = false ∧ d ≠ '(') (h : Scans false rest ks) :
    Scans spaced (n.toList ++ rest) ((.name n, spaced) :: ks) := by
  obtain ⟨c, tail, htext⟩ : ∃ c tail, n.toList = c :: tail := by
    cases hc : n.toList with
    | nil => simp [hc, isNameText] at hn
    | cons c tail => exact ⟨c, tail, rfl⟩
  have hopen : rest.head? ≠ some '(' := fun hr => (hrest '(' hr).2 rfl
  have hscan (offset : Nat) : scan offset c (tail ++ rest) = .ok (.name n, tail.length) := by
    rw [scan_nameText (htext ▸ hn) (fun d hd => (hrest d hd).1) offset, if_neg hopen, ← htext,
      String.ofList_toList]
  rw [htext]
  exact piece hscan (by simp) h

theorem function {n : String} (hn : isNameText n.toList = true) (h : Scans false rest ks) :
    Scans spaced (n.toList ++ '(' :: rest) ((.function n, spaced) :: ks) := by
  obtain ⟨c, tail, htext⟩ : ∃ c tail, n.toList = c :: tail := by
    cases hc : n.toList with
    | nil => simp [hc, isNameText] at hn
    | cons c tail => exact ⟨c, tail, rfl⟩
  have hscan (offset : Nat) :
      scan offset c (tail ++ ['('] ++ rest) = .ok (.function n, (tail ++ ['(']).length) := by
    rw [List.append_assoc, scan_nameText (htext ▸ hn) (by simp; decide) offset, ← htext,
      String.ofList_toList]
    simp
  have hpiece : Scans spaced (c :: (tail ++ ['('] ++ rest)) ((.function n, spaced) :: ks) :=
    piece hscan (by simp) h
  rw [htext]
  simpa using hpiece

theorem string (s : String) (h : Scans false rest ks) :
    Scans spaced (stringChars s ++ rest) ((.string s, spaced) :: ks) := by
  have hscan (offset : Nat) :
      scan offset '"' (s.toList.flatMap stringChar ++ ['"'] ++ rest) =
        .ok (.string s, (s.toList.flatMap stringChar ++ ['"']).length) := by
    have hbody := stringBody_chars s.toList offset rest (offset + 1)
    simp [scan, isBlank, hbody, bind, Except.bind]
    rfl
  exact piece hscan (by simp) h

theorem natural {n : Nat} (hn : n < 0x8000000000000000) (hrest : EndsNumeral rest)
    (h : Scans false rest ks) :
    Scans spaced (Nat.toDigits 10 n ++ rest) ((.integer (Int64.ofInt n), spaced) :: ks) := by
  obtain ⟨c, tail, htext⟩ := List.exists_cons_of_ne_nil (Nat.toDigits_ne_nil (n := n) (b := 10))
  have hparts : (NumberParts.ofNat n).text = c :: tail := by
    rw [NumberParts.text_ofNat, htext]
  rw [htext]
  exact piece (fun offset => by rw [scan_numeral _ hparts hrest offset,
    NumberParts.token_ofNat hn]) (by simp) h

theorem int {i : Int64} (hi : i ≠ Int64.minValue) (hrest : EndsNumeral rest)
    (h : Scans false rest ks) :
    Scans spaced (intChars i ++ rest) (intSigns spaced i ++ ks) := by
  have hle := i.le_toInt
  have hlt := i.toInt_lt
  unfold intChars intSigns
  cases hint : i.toInt with
  | ofNat n =>
    rw [hint, Int.ofNat_eq_natCast] at hlt
    exact natural (by omega) hrest h
  | negSucc n =>
    have hmin : i.toInt ≠ Int64.minValue.toInt := fun h => hi (Int64.toInt_inj.mp h)
    have hn : n + 1 < 0x8000000000000000 := by
      have hvalue : Int64.minValue.toInt = -0x8000000000000000 := by decide
      omega
    exact mark .minus rfl (natural hn hrest h)

theorem bound {i : Option Int64} (hi : boundWellFormed i) (hrest : EndsNumeral rest)
    (h : Scans false rest ks) : Scans false (boundChars i ++ rest) (boundSigns i ++ ks) := by
  cases i with
  | none => exact h
  | some i => exact int hi hrest h

/-- A selector after a point or at the head of a path. -/
theorem dotted {kind : TokenKind} {leading : Bool} (h : ∀ b, Scans b rest ((kind, b) :: ks))
    (hrest : ∀ d ∈ rest.head?, d ∉ Symbol.dot.longer) :
    Scans spaced (dotUnless leading ++ rest) (dottedSigns leading spaced kind ++ ks) := by
  cases leading with
  | true => exact h spaced
  | false => exact symbol .dot hrest (h false)

theorem real (d : Decimal) (hrest : EndsNumeral rest) (h : Scans false rest ks) :
    Scans spaced (RealStyle.literal.decimalText d ++ rest)
      ((.real (numeralReal (RealStyle.literal.decimalText d)), spaced) :: ks) := by
  obtain ⟨n, _, hparts, hwhole, _⟩ := exists_parts_decimalText d
  obtain ⟨c, tail, htext⟩ : ∃ c tail, n.text = c :: tail := by
    obtain ⟨c, tail, hc⟩ := List.exists_cons_of_ne_nil n.whole_ne_nil
    exact ⟨c, _, by rw [NumberParts.text, hc, List.cons_append]⟩
  have htoken : n.token = .real (numeralReal n.text) := by
    simp [NumberParts.token, hwhole]
  rw [← hparts, htext]
  exact piece (fun offset => by rw [scan_numeral n htext hrest offset, htoken, htext]) (by simp) h

end Lexer.Scans

/-! ### Literals -/

theorem isNameText_of_isPlainName {n : String} (h : isPlainName n = true) :
    Lexer.isNameText n.toList = true := by
  unfold isPlainName at h
  cases hn : n.toList with
  | nil => simp [hn] at h
  | cons c cs =>
    simp only [hn, Bool.and_eq_true] at h
    simp only [Lexer.isNameText, Bool.and_eq_true]
    exact h.1

theorem isNameText_boolText (b : Bool) :
    Lexer.isNameText (Scalar.boolText b).toList = true := by
  cases b <;> decide

theorem Scalar.scans {v : Scalar} (hv : v.WellFormed) {spaced : Bool} {rest : List Char}
    {ks : List Sign} (hrest : EndsTerm rest) (h : Lexer.Scans false rest ks) :
    Lexer.Scans spaced (v.canonical ++ rest) (v.signs spaced ++ ks) := by
  have hname := hrest.segment.name
  have hnumeral := hrest.integer.numeral
  cases v with
  | null => exact .name (n := "null") (by decide) hname h
  | bool b => exact .name (isNameText_boolText b) hname h
  | int i => exact .int hv hnumeral h
  | str s => exact .string s h
  | real r =>
    simp only [Scalar.canonical, Scalar.signs, RealStyle.text, realSigns]
    cases Binary64.ofFloat? r with
    | some x =>
      simp only [String.toList_ofList]
      cases x.negative with
      | true => exact .mark .minus rfl (.real _ hnumeral h)
      | false => exact .real _ hnumeral h
    | none =>
      simp only
      by_cases hnan : r.isNaN = true
      · rw [if_pos hnan, if_pos hnan]
        exact .name (n := "NaN") (by decide) hname h
      · rw [if_neg hnan, if_neg hnan]
        by_cases hneg : r < 0.0
        · rw [if_pos hneg, if_pos (by simp [RealStyle.literal, hneg])]
          exact .mark .minus rfl (.name (n := "inf") (by decide) hname h)
        · rw [if_neg hneg, if_neg (by simp [RealStyle.literal, hneg])]
          exact .name (n := "inf") (by decide) hname h

/-! ### First characters -/

/-- Every known function has a name that needs no backslash. -/
def Signatures.Spelled (check? : Signatures) : Prop :=
  ∀ name verify, check? name = some verify → Lexer.isNameText name.toList = true

theorem Signatures.Allows.isNameText {check? : Signatures} (hspelled : check?.Spelled)
    {name : String} {args : List Term} (h : check?.Allows name args) :
    Lexer.isNameText name.toList = true := by
  obtain ⟨verify, hverify, _⟩ := h
  exact hspelled name verify hverify

/-- A character that no text of a term or a selector begins with, so that the symbol before it is
not made longer. -/
def isJoint (c : Char) : Bool := c = '=' || c = '*'

theorem isJoint_of_isDigit {c : Char} (h : c.isDigit = true) : isJoint c = false := by
  cases hj : isJoint c with
  | false => rfl
  | true =>
    simp only [isJoint, Bool.or_eq_true, decide_eq_true_eq] at hj
    rcases hj with hj | hj <;> subst hj <;> simp at h

theorem isJoint_of_isNameText {cs : List Char} (h : Lexer.isNameText cs = true) :
    ∀ d ∈ cs.head?, isJoint d = false := by
  intro d hd
  have hd := (Lexer.mem_of_isNameText h d (List.mem_of_mem_head? hd)).2
  cases hj : isJoint d with
  | false => rfl
  | true =>
    simp only [isJoint, Bool.or_eq_true, decide_eq_true_eq] at hj
    have heq : Lexer.isNameChar '=' = false := by decide
    have hstar : Lexer.isNameChar '*' = false := by decide
    rcases hj with hj | hj <;> subst hj <;> simp_all

theorem isJoint_decimalText (d : Decimal) :
    ∀ c ∈ (RealStyle.literal.decimalText d).head?, isJoint c = false := by
  obtain ⟨n, _, hparts, _⟩ := exists_parts_decimalText d
  obtain ⟨c, tail, hc⟩ := List.exists_cons_of_ne_nil n.whole_ne_nil
  intro d hd
  rw [← hparts, NumberParts.text, hc, List.cons_append, List.head?_cons, Option.mem_some] at hd
  exact isJoint_of_isDigit (n.whole_digits d (by rw [hc, hd]; exact List.mem_cons_self))

theorem isJoint_canonical (v : Scalar) : ∀ d ∈ v.canonical.head?, isJoint d = false := by
  cases v with
  | null => simp [Scalar.canonical, isJoint]
  | bool b => cases b <;> simp [Scalar.canonical, Scalar.boolText, isJoint]
  | int i =>
    simp only [Scalar.canonical, intChars]
    cases i.toInt with
    | ofNat n =>
      exact fun d hd => isJoint_of_isDigit
        (Nat.isDigit_of_mem_toDigits (by decide) (by decide) (List.mem_of_mem_head? hd))
    | negSucc n => simp [isJoint]
  | str s => simp [Scalar.canonical, stringChars, isJoint]
  | real r =>
    simp only [Scalar.canonical, RealStyle.text]
    cases Binary64.ofFloat? r with
    | some x =>
      simp only [String.toList_ofList]
      cases x.negative with
      | true => simp [isJoint]
      | false => exact isJoint_decimalText _
    | none =>
      simp only
      split
      · simp [RealStyle.literal, isJoint]
      · split <;> simp [RealStyle.literal, isJoint]

theorem exists_cons_of_isNameText {cs : List Char} (h : Lexer.isNameText cs = true)
    (rest : List Char) :
    ∃ c tail, cs ++ rest = c :: tail ∧ isJoint c = false := by
  cases cs with
  | nil => simp [Lexer.isNameText] at h
  | cons c cs => exact ⟨c, cs ++ rest, rfl, isJoint_of_isNameText h c rfl⟩

section

variable {check? : Signatures} (hspelled : check?.Spelled)
include hspelled

theorem Segment.exists_cons_chars {s : Segment} (h : s.WellFormed check?) :
    ∃ c cs, s.chars true = c :: cs ∧ (isJoint c = false ∨ c = '*' ∧ s = .wildcard) := by
  cases s with
  | child name =>
    by_cases hname : isPlainName name = true
    · obtain ⟨c, tail, htext, hc⟩ := exists_cons_of_isNameText
        (isNameText_of_isPlainName hname) []
      refine ⟨c, tail, ?_, Or.inl hc⟩
      rw [List.append_nil] at htext
      simp [Segment.chars, hname, dotUnless, htext]
    · exact ⟨'[', _, by simp only [Segment.chars, hname]; rfl, Or.inl rfl⟩
  | call name args =>
    simp only [Segment.WellFormed] at h
    obtain ⟨c, tail, htext, hc⟩ := exists_cons_of_isNameText
      (h.1.isNameText hspelled) ('(' :: (termsChars args ++ [')']))
    exact ⟨c, tail, by simpa [Segment.chars, dotUnless] using htext, Or.inl hc⟩
  | wildcard => exact ⟨'*', [], rfl, Or.inr ⟨rfl, rfl⟩⟩
  | index i => exact ⟨'[', _, rfl, Or.inl rfl⟩
  | anyIndex => exact ⟨'[', _, rfl, Or.inl rfl⟩
  | recursive inner => exact ⟨'.', _, rfl, Or.inl rfl⟩
  | recursiveWildcard => exact ⟨'.', _, rfl, Or.inl rfl⟩
  | slice first stop step => exact ⟨'[', _, rfl, Or.inl rfl⟩
  | filter t => exact ⟨'[', _, rfl, Or.inl rfl⟩
  | predicate t => exact ⟨'[', _, rfl, Or.inl rfl⟩

/-- Two points are not followed by a star, which would make another symbol of them. -/
theorem Segment.dotDot_chars {s : Segment} (h : s.WellFormed check?) (hs : s.isSelector = true)
    (rest : List Char) :
    ∀ d ∈ (s.chars true ++ rest).head?, d ∉ Symbol.dotDot.longer := by
  obtain ⟨c, cs, htext, hc⟩ := s.exists_cons_chars hspelled h
  intro d hd
  rw [htext, List.cons_append, List.head?_cons, Option.mem_some] at hd
  rcases hc with hc | ⟨_, hc⟩
  · rw [← hd]
    simp [isJoint] at hc
    simp [Symbol.longer, hc]
  · rw [hc] at hs
    cases hs

/-- A prefix operator is not followed by an equal sign, which would make another symbol of it. -/
theorem Term.bang_chars {t : Term} (h : t.WellFormed check?) {rest : List Char}
    (hrest : EndsTerm rest) :
    ∀ d ∈ (t.chars ++ rest).head?, d ∉ Symbol.bang.longer := by
  have hends : ∀ d ∈ rest.head?, d ≠ '=' := by
    intro d hd
    rcases hrest.segment.cases hd with rfl | rfl | rfl | rfl | rfl | rfl <;> decide
  suffices hchars : ∀ d ∈ t.chars.head?, d ≠ '=' by
    intro d hd
    rw [List.head?_append, Option.mem_def, Option.or_eq_some_iff] at hd
    rw [Symbol.longer, List.mem_singleton]
    -- what follows the term shows only if the term has no characters
    rcases hd with hd | ⟨_, hd⟩
    · exact hchars d hd
    · exact hends d hd
  cases t with
  | literal v =>
    intro d hd heq
    have := isJoint_canonical v d hd
    simp [isJoint, heq] at this
  | path start segments =>
    cases start with
    | root => simp [Term.chars, Start.chars]
    | current => simp [Term.chars, Start.chars]
    | term t => simp [Term.chars, Start.chars]
    | context =>
      simp only [Term.chars, Start.chars, Start.isLeading, List.nil_append]
      cases segments with
      | nil => simp [segmentsChars]
      | cons s ss =>
        simp only [Term.WellFormed, segmentsWellFormed] at h
        obtain ⟨c, cs, htext, hc⟩ := s.exists_cons_chars hspelled h.2.1.1
        simp only [segmentsChars, htext, List.cons_append, List.head?_cons, Option.mem_some]
        rintro d rfl heq
        rcases hc with hc | ⟨hc, _⟩ <;> simp [isJoint, heq] at hc
  | call name args =>
    simp only [Term.WellFormed] at h
    obtain ⟨c, tail, htext, hc⟩ := exists_cons_of_isNameText
      (h.1.isNameText hspelled) ('(' :: (termsChars args ++ [')']))
    simp only [Term.chars, htext, List.head?_cons, Option.mem_some]
    rintro d rfl heq
    simp [isJoint, heq] at hc
  | unary op t => cases op <;> simp [Term.chars, UnaryOp.text]
  | binary op l r => simp [Term.chars]
  | ternary a b c => simp [Term.chars]
  | list ts => simp [Term.chars]

omit hspelled in
theorem dot_of_isNameText {cs : List Char} (h : Lexer.isNameText cs = true) (rest : List Char) :
    ∀ d ∈ (cs ++ rest).head?, d ∉ Symbol.dot.longer := by
  intro d hd
  have hchar : Lexer.isNameChar d = true := by
    cases cs with
    | nil => simp [Lexer.isNameText] at h
    | cons c cs => exact (Lexer.mem_of_isNameText h d (by simp_all)).2
  have hdot : Lexer.isNameChar '.' = false := by decide
  rw [Symbol.longer, List.mem_singleton]
  rintro rfl
  rw [hdot] at hchar
  cases hchar

end

/-! ### The canonical text of a term -/

theorem EndsTerm.moreTerms (ts : List Term) {rest : List Char} (hrest : EndsTerm rest) :
    EndsTerm (moreTermsChars ts ++ rest) := by
  cases ts with
  | nil => exact hrest
  | cons t ts =>
    simp only [moreTermsChars, List.cons_append]
    exact .cons _ (by decide)

theorem EndsSegment.segments (ss : List Segment) {rest : List Char} (hrest : EndsSegment rest) :
    EndsSegment (segmentsChars false ss ++ rest) := by
  cases ss with
  | nil => exact hrest
  | cons s ss =>
    intro d hd
    cases s with
    | child name =>
      by_cases hname : isPlainName name = true
      · simp [segmentsChars, Segment.chars, hname, dotUnless] at hd
        rw [← hd]
        decide
      · simp [segmentsChars, Segment.chars, hname] at hd
        rw [← hd]
        decide
    | _ =>
      simp [segmentsChars, Segment.chars, dotUnless] at hd
      rw [← hd]
      decide

theorem Lexer.Scans.slice {first stop step : Option Int64} (hfirst : boundWellFormed first)
    (hstop : boundWellFormed stop) (hstep : boundWellFormed step) {leading spaced : Bool}
    {rest : List Char} {ks : List Sign} (hks : Scans false rest ks) :
    Scans spaced ((Segment.slice first stop step).chars leading ++ rest)
      ((Segment.slice first stop step).signs leading spaced ++ ks) := by
  have hclose : Scans false (']' :: rest) (Symbol.rightBracket.sign false :: ks) :=
    .mark .rightBracket rfl hks
  have hends (cs : List Char) : EndsNumeral (']' :: cs) :=
    (EndsInteger.cons cs (by decide)).numeral
  have hcolon (cs : List Char) : EndsNumeral (':' :: cs) :=
    (EndsInteger.cons cs (by decide)).numeral
  simp only [Segment.chars, Segment.signs, List.append_assoc, List.cons_append, List.nil_append]
  refine .mark .leftBracket rfl (.bound hfirst (hcolon _) (.mark .colon rfl ?_))
  cases step with
  | none => exact .bound hstop (hends _) hclose
  | some i => exact .bound hstop (hcolon _) (.mark .colon rfl (.int hstep (hends _) hclose))

section

variable {check? : Signatures}

mutual

/-- The canonical text of a term is scanned into its lexemes, before anything that can follow it. -/
theorem Term.scans (hspelled : check?.Spelled) (t : Term) (h : t.WellFormed check?)
    {spaced : Bool} {rest : List Char} {ks : List Sign} (hrest : EndsTerm rest)
    (hks : Lexer.Scans false rest ks) :
    Lexer.Scans spaced (t.chars ++ rest) (t.signs spaced ++ ks) := by
  -- what follows is scanned already, and the pieces of the text are put before it, the last one first
  match t with
  | .literal v =>
    simp only [Term.WellFormed] at h
    exact v.scans h hrest hks
  | .path start segments =>
    simp only [Term.WellFormed] at h
    simp only [Term.chars, Term.signs, List.append_assoc]
    match start with
    | .root => exact .mark .dollar rfl (segmentsScans hspelled segments h.2.1 hrest.segment hks)
    | .current => exact .mark .atSign rfl (segmentsScans hspelled segments h.2.1 hrest.segment hks)
    | .term t =>
      simp only [Start.WellFormed] at h
      simp only [Start.chars, Start.signs, List.cons_append, List.append_assoc, List.nil_append]
      exact .mark .leftParen rfl (t.scans hspelled h.1.1 (.cons _ (by decide))
        (.mark .rightParen rfl (segmentsScans hspelled segments h.2.1 hrest.segment hks)))
    | .context =>
      match segments with
      | [] => exact absurd rfl (h.2.2 rfl)
      | s :: ss =>
        simp only [segmentsWellFormed] at h
        simp only [segmentsChars, segmentsSigns, List.append_assoc]
        exact s.scans hspelled h.2.1.1 (hrest.segment.segments ss)
          (segmentsScans hspelled ss h.2.1.2 hrest.segment hks)
  | .call name args =>
    simp only [Term.WellFormed] at h
    simp only [Term.chars, Term.signs, List.append_assoc, List.cons_append, List.nil_append]
    exact .function (h.1.isNameText hspelled)
      (termsScans hspelled args h.2 (.cons _ (by decide)) (.mark .rightParen rfl hks))
  | .unary op t =>
    simp only [Term.WellFormed] at h
    simp only [Term.chars, Term.signs, List.append_assoc, List.cons_append, ← op.text_symbol]
    refine .symbol op.symbol ?_ (t.scans hspelled h.1 hrest hks)
    cases op with
    | not => exact t.bang_chars hspelled h.1 hrest
    | neg => exact fun d _ => List.not_mem_nil
  | .binary op l r =>
    simp only [Term.WellFormed] at h
    have hop : ∀ d ∈ (' ' :: (r.chars ++ ')' :: rest)).head?, d ∉ op.symbol.longer := by
      cases op <;> simp [BinaryOp.symbol, Symbol.longer]
    have hright : Lexer.Scans false
        (' ' :: (op.text.toList ++ ' ' :: (r.chars ++ ')' :: rest)))
        (op.symbol.sign true :: (r.signs true ++ Symbol.rightParen.sign false :: ks)) := by
      rw [← op.text_symbol]
      exact .space (.symbol op.symbol hop (.space (r.scans hspelled h.2 (.cons rest (by decide))
        (.mark .rightParen rfl hks))))
    by_cases hleft : (op = .pow && l.isSigned) = true
    · simp only [Term.chars, Term.signs, if_pos hleft, List.append_assoc, List.cons_append,
        List.nil_append]
      exact .mark .leftParen rfl (.mark .leftParen rfl (l.scans hspelled h.1 (.cons _ (by decide))
        (.mark .rightParen rfl hright)))
    · simp only [Term.chars, Term.signs, if_neg hleft, List.append_assoc, List.cons_append,
        List.nil_append]
      exact .mark .leftParen rfl (l.scans hspelled h.1 (.cons _ (by decide)) hright)
  | .ternary a b c =>
    simp only [Term.WellFormed] at h
    have hno : Lexer.Scans true (c.chars ++ ')' :: rest)
        (c.signs true ++ Symbol.rightParen.sign false :: ks) :=
      c.scans hspelled h.2.2 (.cons _ (by decide)) (.mark .rightParen rfl hks)
    have hyes : Lexer.Scans true (b.chars ++ ' ' :: ':' :: ' ' :: (c.chars ++ ')' :: rest))
        (b.signs true ++ Symbol.colon.sign true ::
          (c.signs true ++ Symbol.rightParen.sign false :: ks)) :=
      b.scans hspelled h.2.1 (.cons _ (by decide)) (.space (.mark .colon rfl (.space hno)))
    simp only [Term.chars, Term.signs, List.append_assoc, List.cons_append, List.nil_append]
    exact .mark .leftParen rfl (a.scans hspelled h.1 (.cons _ (by decide))
      (.space (.mark .question rfl (.space hyes))))
  | .list ts =>
    simp only [Term.WellFormed] at h
    simp only [Term.chars, Term.signs, List.append_assoc, List.cons_append, List.nil_append]
    exact .mark .leftParen rfl (termsScans hspelled ts h.2 (.cons _ (by decide))
      (.mark .rightParen rfl hks))

theorem Segment.scans (hspelled : check?.Spelled) (s : Segment) (h : s.WellFormed check?)
    {leading spaced : Bool} {rest : List Char} {ks : List Sign} (hrest : EndsSegment rest)
    (hks : Lexer.Scans false rest ks) :
    Lexer.Scans spaced (s.chars leading ++ rest) (s.signs leading spaced ++ ks) := by
  match s with
  | .child name =>
    by_cases hname : isPlainName name = true
    · simp only [Segment.chars, Segment.signs, if_pos hname, List.append_assoc]
      have htext := isNameText_of_isPlainName hname
      exact .dotted (fun b => .name htext hrest.name hks) (dot_of_isNameText htext rest)
    · simp only [Segment.chars, Segment.signs, if_neg hname, List.append_assoc, List.cons_append]
      exact .mark .leftBracket rfl (.string name (.mark .rightBracket rfl hks))
  | .index i =>
    simp only [Segment.WellFormed] at h
    simp only [Segment.chars, Segment.signs, List.append_assoc, List.cons_append, List.nil_append]
    exact .mark .leftBracket rfl (.int h (EndsInteger.cons _ (by decide)).numeral
      (.mark .rightBracket rfl hks))
  | .anyIndex =>
    exact .mark .leftBracket rfl (.symbol .star (by simp [Symbol.longer])
      (.mark .rightBracket rfl hks))
  | .wildcard =>
    simp only [Segment.chars, Segment.signs, List.append_assoc]
    exact .dotted (fun b => .symbol .star hrest.star hks) (by simp [Symbol.longer])
  | .recursive inner =>
    simp only [Segment.WellFormed] at h
    simp only [Segment.chars, Segment.signs, List.cons_append]
    exact .symbol .dotDot (inner.dotDot_chars hspelled h.1 h.2 rest)
      (inner.scans hspelled h.1 hrest hks)
  | .recursiveWildcard => exact .mark .dotDotStar rfl hks
  | .slice first stop step =>
    simp only [Segment.WellFormed] at h
    exact .slice h.1 h.2.1 h.2.2.1 hks
  | .filter t =>
    simp only [Segment.WellFormed] at h
    simp only [Segment.chars, Segment.signs, List.append_assoc, List.cons_append, List.nil_append]
    exact .mark .leftBracket rfl (.mark .question rfl (.mark .leftParen rfl
      (t.scans hspelled h (.cons _ (by decide))
        (.mark .rightParen rfl (.mark .rightBracket rfl hks)))))
  | .predicate t =>
    simp only [Segment.WellFormed] at h
    simp only [Segment.chars, Segment.signs, List.append_assoc, List.cons_append, List.nil_append]
    exact .mark .leftBracket rfl (t.scans hspelled h.1 (.cons _ (by decide))
      (.mark .rightBracket rfl hks))
  | .call name args =>
    simp only [Segment.WellFormed] at h
    have htext := h.1.isNameText hspelled
    have hargs := termsScans hspelled args h.2 (.cons rest (by decide)) (.mark .rightParen rfl hks)
    simp only [Segment.chars, Segment.signs, List.append_assoc, List.cons_append, List.nil_append]
    exact .dotted (fun b => .function htext hargs) (dot_of_isNameText htext _)

theorem segmentsScans (hspelled : check?.Spelled) (ss : List Segment)
    (h : segmentsWellFormed check? ss) {rest : List Char} {ks : List Sign}
    (hrest : EndsSegment rest) (hks : Lexer.Scans false rest ks) :
    Lexer.Scans false (segmentsChars false ss ++ rest) (segmentsSigns false false ss ++ ks) := by
  match ss with
  | [] => exact hks
  | s :: ss =>
    simp only [segmentsWellFormed] at h
    simp only [segmentsChars, segmentsSigns, List.append_assoc]
    exact s.scans hspelled h.1 (hrest.segments ss) (segmentsScans hspelled ss h.2 hrest hks)

theorem termsScans (hspelled : check?.Spelled) (ts : List Term)
    (h : termsWellFormed check? ts) {rest : List Char} {ks : List Sign} (hrest : EndsTerm rest)
    (hks : Lexer.Scans false rest ks) :
    Lexer.Scans false (termsChars ts ++ rest) (termsSigns ts ++ ks) := by
  match ts with
  | [] => exact hks
  | t :: ts =>
    simp only [termsWellFormed] at h
    simp only [termsChars, termsSigns, List.append_assoc]
    exact t.scans hspelled h.1 (hrest.moreTerms ts) (moreTermsScans hspelled ts h.2 hrest hks)

theorem moreTermsScans (hspelled : check?.Spelled) (ts : List Term)
    (h : termsWellFormed check? ts) {rest : List Char} {ks : List Sign} (hrest : EndsTerm rest)
    (hks : Lexer.Scans false rest ks) :
    Lexer.Scans false (moreTermsChars ts ++ rest) (moreTermsSigns ts ++ ks) := by
  match ts with
  | [] => exact hks
  | t :: ts =>
    simp only [termsWellFormed] at h
    simp only [moreTermsChars, moreTermsSigns, List.append_assoc, List.cons_append]
    exact .mark .comma rfl (.space (t.scans hspelled h.1 (hrest.moreTerms ts)
      (moreTermsScans hspelled ts h.2 hrest hks)))

end

end

end PathQuery
