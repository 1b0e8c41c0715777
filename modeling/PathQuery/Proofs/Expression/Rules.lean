import PathQuery.Proofs.Expression.Lexemes

/-!
# The rules of the grammar

Each rule of the parser as an inference: from what its parts read to what it reads. Lexemes count
only by their signs, so the places in a text play no role. What a rule must not find next is a
condition on the first of the signs that are left.
-/

namespace PathQuery
namespace Parser

/-! ### Reading -/

/-- What a rule may leave of some lexemes. -/
abbrev Rule (α : Type) (P : List Lexeme → List Lexeme → Prop) :=
  (ls : List Lexeme) → Except Fault (α × { rest : List Lexeme // P ls rest })

/-- From lexemes with the signs `ks`, the rule `f` reads `a` and leaves ones signed `ks'`. -/
def Reads {α : Type} {P : List Lexeme → List Lexeme → Prop} (f : Rule α P) (ks : List Sign) (a : α)
    (ks' : List Sign) : Prop :=
  ∀ ls, ls.map Lexeme.sign = ks →
    ∃ rest h, f ls = .ok (a, ⟨rest, h⟩) ∧ rest.map Lexeme.sign = ks'

theorem exists_of_map_sign {ls : List Lexeme} {k : TokenKind} {b : Bool} {ks : List Sign}
    (h : ls.map Lexeme.sign = (k, b) :: ks) :
    ∃ o rest, ls = ⟨k, o, b⟩ :: rest ∧ rest.map Lexeme.sign = ks := by
  obtain ⟨l, rest, rfl, hl, hrest⟩ := List.map_eq_cons_iff.mp h
  obtain ⟨kind, offset, spaced⟩ := l
  simp only [Lexeme.sign, Prod.mk.injEq] at hl
  exact ⟨offset, rest, by rw [hl.1, hl.2], hrest⟩

section

variable {check? : Signatures} {stop : Nat} {ks ks' ks'' : List Sign} {b : Bool}

theorem expect_sign (stop : Nat) {ls : List Lexeme} {s : Symbol}
    (h : ls.map Lexeme.sign = s.sign b :: ks) :
    ∃ rest hr, expect stop s ls = .ok ⟨rest, hr⟩ ∧ rest.map Lexeme.sign = ks := by
  obtain ⟨o, rest, rfl, hrest⟩ := exists_of_map_sign h
  exact ⟨rest, Nat.lt_succ_self _, by simp only [expect, if_true], hrest⟩

/-! ### Lists and operators -/

theorem parseList_reads {t : Term} {ts : List Term} (ht : Reads (parseExpr check? stop) ks t ks')
    (hts : Reads (parseMore check? stop) ks' ts ks'') :
    Reads (parseList check? stop) ks (t :: ts) ks'' := by
  intro ls hls
  obtain ⟨rest, h, hr, hrest⟩ := ht ls hls
  obtain ⟨rest', h', hr', hrest'⟩ := hts rest hrest
  refine ⟨rest', Nat.lt_of_le_of_lt h' h, ?_, hrest'⟩
  rw [parseList, hr]
  simp only [bind, Except.bind, hr']
  rfl

theorem parseMore_reads_comma {t : Term} {ts : List Term}
    (ht : Reads (parseExpr check? stop) ks t ks')
    (hts : Reads (parseMore check? stop) ks' ts ks'') :
    Reads (parseMore check? stop) (Symbol.comma.sign b :: ks) (t :: ts) ks'' := by
  intro ls hls
  obtain ⟨o, ls, rfl, hls'⟩ := exists_of_map_sign hls
  obtain ⟨rest, h, hr, hrest⟩ := ht ls hls'
  obtain ⟨rest', h', hr', hrest'⟩ := hts rest hrest
  refine ⟨rest', Nat.le_succ_of_le (Nat.le_trans h' (Nat.le_of_lt h)), ?_, hrest'⟩
  rw [parseMore, hr]
  simp only [bind, Except.bind, hr']
  rfl

theorem parseMore_reads_nil (hks : ∀ s ∈ ks.head?, s.1 ≠ .symbol .comma) :
    Reads (parseMore check? stop) ks [] ks := by
  intro ls hls
  refine ⟨ls, Nat.le_refl _, ?_, hls⟩
  unfold parseMore
  split
  · subst hls
    exact absurd rfl (hks _ rfl)
  · rfl

theorem parseExpr_reads {t : Term} (ht : Reads (parseBinary check? stop 1) ks t ks')
    (hks : ∀ s ∈ ks'.head?, s.1 ≠ .symbol .question) : Reads (parseExpr check? stop) ks t ks' := by
  intro ls hls
  obtain ⟨rest, h, hr, hrest⟩ := ht ls hls
  refine ⟨rest, h, ?_, hrest⟩
  rw [parseExpr, hr]
  simp only [bind, Except.bind]
  split
  · subst hrest
    exact absurd rfl (hks _ rfl)
  · rfl

theorem parseExpr_reads_ternary {test yes no : Term} {b' : Bool} {ks₁ ks₂ ks₃ : List Sign}
    (htest : Reads (parseBinary check? stop 1) ks test (Symbol.question.sign b :: ks₁))
    (hyes : Reads (parseExpr check? stop) ks₁ yes (Symbol.colon.sign b' :: ks₂))
    (hno : Reads (parseExpr check? stop) ks₂ no ks₃) :
    Reads (parseExpr check? stop) ks (.ternary test yes no) ks₃ := by
  intro ls hls
  obtain ⟨r, h, hr, hrest⟩ := htest ls hls
  obtain ⟨o, ls₁, rfl, hls₁⟩ := exists_of_map_sign hrest
  obtain ⟨r₁, h₁, hr₁, hrest₁⟩ := hyes ls₁ hls₁
  obtain ⟨r₂, h₂, hr₂, hrest₂⟩ := expect_sign stop hrest₁
  obtain ⟨r₃, h₃, hr₃, hrest₃⟩ := hno r₂ hrest₂
  have hlen : r₃.length < ls.length := by
    simp only [List.length_cons] at h
    omega
  refine ⟨r₃, hlen, ?_, hrest₃⟩
  rw [parseExpr, hr]
  simp only [bind, Except.bind, hr₁, hr₂, hr₃]
  rfl

theorem parseBinary_reads {least : Nat} {lhs t : Term}
    (hl : Reads (parseUnary check? stop) ks lhs ks')
    (ht : Reads (climb check? stop least lhs) ks' t ks'') :
    Reads (parseBinary check? stop least) ks t ks'' := by
  intro ls hls
  obtain ⟨r, h, hr, hrest⟩ := hl ls hls
  obtain ⟨r', h', hr', hrest'⟩ := ht r hrest
  refine ⟨r', Nat.lt_of_le_of_lt h' h, ?_, hrest'⟩
  rw [parseBinary, hr]
  simp only [bind, Except.bind, hr']
  rfl

/-- No operator here binds at least as tight as `least`. -/
theorem climb_reads_looser {least : Nat} {lhs : Term}
    (hks : ∀ s ∈ ks.head?, ∀ op ∈ binaryOp? s.1, op.precedence < least) :
    Reads (climb check? stop least lhs) ks lhs ks := by
  intro ls hls
  refine ⟨ls, Nat.le_refl _, ?_, hls⟩
  cases ls with
  | nil => rw [climb]
  | cons l ls =>
    subst hls
    rw [climb]
    split
    · rfl
    · next op hop => rw [if_pos (hks _ rfl op hop)]

theorem climb_reads_stop {least : Nat} {lhs : Term} (hks : ∀ s ∈ ks.head?, binaryOp? s.1 = none) :
    Reads (climb check? stop least lhs) ks lhs ks := by
  refine climb_reads_looser fun s hs op hop => ?_
  rw [hks s hs] at hop
  cases hop

theorem climb_reads_op {least : Nat} {op : BinaryOp} {lhs rhs t : Term} {k : TokenKind}
    (hop : binaryOp? k = some op) (hleast : least ≤ op.precedence)
    (hr : Reads (parseBinary check? stop (op.precedence + 1)) ks rhs ks')
    (ht : Reads (climb check? stop least (.binary op lhs rhs)) ks' t ks'') :
    Reads (climb check? stop least lhs) ((k, b) :: ks) t ks'' := by
  intro ls hls
  obtain ⟨o, ls, rfl, hls'⟩ := exists_of_map_sign hls
  obtain ⟨r, h, hr, hrest⟩ := hr ls hls'
  obtain ⟨r', h', hr', hrest'⟩ := ht r hrest
  refine ⟨r', Nat.le_succ_of_le (Nat.le_trans h' (Nat.le_of_lt h)), ?_, hrest'⟩
  rw [climb]
  split
  · next hnone =>
    rw [hop] at hnone
    cases hnone
  · next op' hsome =>
    rw [hop] at hsome
    cases hsome
    rw [if_neg (Nat.not_lt.mpr hleast), hr]
    simp only [bind, Except.bind, hr']
    rfl

theorem parseUnary_reads_op (op : UnaryOp) {t : Term}
    (ht : Reads (parseUnary check? stop) ks t ks') :
    Reads (parseUnary check? stop) (op.symbol.sign b :: ks) (applyUnary op t) ks' := by
  intro ls hls
  obtain ⟨o, ls, rfl, hls'⟩ := exists_of_map_sign hls
  obtain ⟨r, h, hr, hrest⟩ := ht ls hls'
  refine ⟨r, Nat.lt_succ_of_lt h, ?_, hrest⟩
  cases op with
  | not =>
    simp only [UnaryOp.symbol]
    rw [parseUnary, hr]
    rfl
  | neg =>
    simp only [UnaryOp.symbol]
    rw [parseUnary, hr]
    rfl

theorem parseUnary_reads {t : Term} (ht : Reads (parsePower check? stop) ks t ks')
    (hks : ∀ s ∈ ks.head?, s.1 ≠ .symbol .bang ∧ s.1 ≠ .symbol .minus) :
    Reads (parseUnary check? stop) ks t ks' := by
  intro ls hls
  obtain ⟨r, h, hr, hrest⟩ := ht ls hls
  refine ⟨r, h, ?_, hrest⟩
  unfold parseUnary
  split
  · subst hls
    exact absurd rfl (hks _ rfl).1
  · subst hls
    exact absurd rfl (hks _ rfl).2
  · exact hr

theorem parsePower_reads {t : Term} (ht : Reads (parsePostfix check? stop) ks t ks')
    (hks : ∀ s ∈ ks'.head?, s.1 ≠ .symbol .starStar) : Reads (parsePower check? stop) ks t ks' := by
  intro ls hls
  obtain ⟨rest, h, hr, hrest⟩ := ht ls hls
  refine ⟨rest, h, ?_, hrest⟩
  rw [parsePower, hr]
  simp only [bind, Except.bind]
  split
  · subst hrest
    exact absurd rfl (hks _ rfl)
  · rfl

theorem parsePower_reads_pow {base exponent : Term}
    (hbase : Reads (parsePostfix check? stop) ks base (Symbol.starStar.sign b :: ks'))
    (hexponent : Reads (parseUnary check? stop) ks' exponent ks'') :
    Reads (parsePower check? stop) ks (.binary .pow base exponent) ks'' := by
  intro ls hls
  obtain ⟨r, h, hr, hrest⟩ := hbase ls hls
  obtain ⟨o, ls₁, rfl, hls₁⟩ := exists_of_map_sign hrest
  obtain ⟨r₁, h₁, hr₁, hrest₁⟩ := hexponent ls₁ hls₁
  refine ⟨r₁, Nat.lt_trans h₁ (Nat.lt_of_succ_lt h), ?_, hrest₁⟩
  rw [parsePower, hr]
  simp only [bind, Except.bind, hr₁]
  rfl

/-! ### Paths -/

theorem parsePostfix_reads {t : Term} {ss : List Segment}
    (ht : Reads (parsePrimary check? stop) ks t ks')
    (hss : Reads (parseSegments check? stop) ks' ss ks'') :
    Reads (parsePostfix check? stop) ks (extendPath t ss) ks'' := by
  intro ls hls
  obtain ⟨r, h, hr, hrest⟩ := ht ls hls
  obtain ⟨r', h', hr', hrest'⟩ := hss r hrest
  refine ⟨r', Nat.lt_of_le_of_lt h' h, ?_, hrest'⟩
  rw [parsePostfix, hr]
  simp only [bind, Except.bind, hr']
  rfl

/-! ### Segments -/

def ReadsSegment (check? : Signatures) (stop : Nat) (ks : List Sign) (s : Segment)
    (ks' : List Sign) : Prop :=
  ∀ ls, ls.map Lexeme.sign = ks →
    ∃ rest h, parseSegment check? stop ls = .ok (some (s, ⟨rest, h⟩)) ∧ rest.map Lexeme.sign = ks'

def beginsSegment : TokenKind → Bool
  | .symbol .dot | .symbol .dotDot | .symbol .dotDotStar | .symbol .leftBracket => true
  | _ => false

theorem parseSegment_none (check? : Signatures) (stop : Nat) {l : Lexeme} {ls : List Lexeme}
    (h : beginsSegment l.kind = false) :
    parseSegment check? stop (l :: ls) = .ok none := by
  obtain ⟨kind, offset, spaced⟩ := l
  simp only at h
  rw [parseSegment]
  · rfl
  all_goals
    rintro _ _ _ heq
    cases heq
    cases h

theorem parseSegments_none {l : Lexeme} {ls : List Lexeme}
    (h : l.spaced = false → beginsSegment l.kind = false) :
    parseSegments check? stop (l :: ls) = .ok ([], ⟨l :: ls, Nat.le_refl _⟩) := by
  rw [parseSegments]
  cases hspaced : l.spaced with
  | true => rfl
  | false =>
    rw [parseSegment_none check? stop (h hspaced)]
    rfl

theorem parseSegments_reads_nil (hks : ∀ s ∈ ks.head?, s.2 = false → beginsSegment s.1 = false) :
    Reads (parseSegments check? stop) ks [] ks := by
  intro ls hls
  refine ⟨ls, Nat.le_refl _, ?_, hls⟩
  cases ls with
  | nil => rw [parseSegments]
  | cons l ls =>
    subst hls
    exact parseSegments_none (hks _ rfl)

theorem parseSegments_reads_cons {s : Segment} {ss : List Segment} {k : TokenKind}
    (hs : ReadsSegment check? stop ((k, false) :: ks) s ks')
    (hss : Reads (parseSegments check? stop) ks' ss ks'') :
    Reads (parseSegments check? stop) ((k, false) :: ks) (s :: ss) ks'' := by
  intro ls hls
  obtain ⟨r, h, hr, hrest⟩ := hs ls hls
  obtain ⟨r', h', hr', hrest'⟩ := hss r hrest
  obtain ⟨o, ls, rfl, _⟩ := exists_of_map_sign hls
  refine ⟨r', Nat.le_trans h' (Nat.le_of_lt h), ?_, hrest'⟩
  rw [parseSegments, hr]
  simp only [bind, Except.bind, hr']
  rfl

theorem parseSegment_reads_dot {s : Segment} (hs : Reads (parseDotted check? stop) ks s ks') :
    ReadsSegment check? stop (Symbol.dot.sign b :: ks) s ks' := by
  intro ls hls
  obtain ⟨o, ls, rfl, hls'⟩ := exists_of_map_sign hls
  obtain ⟨r, h, hr, hrest⟩ := hs ls hls'
  refine ⟨r, Nat.lt_succ_of_lt h, ?_, hrest⟩
  rw [parseSegment, hr]
  rfl

theorem parseSegment_reads_bracket {s : Segment} (hs : Reads (parseBracket check? stop) ks s ks') :
    ReadsSegment check? stop (Symbol.leftBracket.sign b :: ks) s ks' := by
  intro ls hls
  obtain ⟨o, ls, rfl, hls'⟩ := exists_of_map_sign hls
  obtain ⟨r, h, hr, hrest⟩ := hs ls hls'
  refine ⟨r, Nat.lt_succ_of_lt h, ?_, hrest⟩
  rw [parseSegment, hr]
  rfl

theorem parseSegment_reads_dotDotStar :
    ReadsSegment check? stop (Symbol.dotDotStar.sign b :: ks) .recursiveWildcard ks := by
  intro ls hls
  obtain ⟨o, ls, rfl, hls'⟩ := exists_of_map_sign hls
  refine ⟨ls, Nat.lt_succ_self _, ?_, hls'⟩
  rw [parseSegment]
  rfl

theorem parseSegment_reads_dotDot_bracket {s : Segment} {b' : Bool}
    (hs : Reads (parseBracket check? stop) ks s ks') :
    ReadsSegment check? stop (Symbol.dotDot.sign b :: Symbol.leftBracket.sign b' :: ks)
      (.recursive s) ks' := by
  intro ls hls
  obtain ⟨o, ls, rfl, hls'⟩ := exists_of_map_sign hls
  obtain ⟨o', ls, rfl, hls''⟩ := exists_of_map_sign hls'
  obtain ⟨r, h, hr, hrest⟩ := hs ls hls''
  refine ⟨r, Nat.lt_succ_of_lt (Nat.lt_succ_of_lt h), ?_, hrest⟩
  rw [parseSegment]
  simp only [hr]
  rfl

theorem parseSegment_reads_dotDot {s : Segment} (hs : Reads (parseDotted check? stop) ks s ks')
    (hks : ∀ k ∈ ks.head?, k.1 ≠ .symbol .star ∧ k.1 ≠ .symbol .leftBracket) :
    ReadsSegment check? stop (Symbol.dotDot.sign b :: ks) (.recursive s) ks' := by
  intro ls hls
  obtain ⟨o, ls, rfl, hls'⟩ := exists_of_map_sign hls
  obtain ⟨r, h, hr, hrest⟩ := hs ls hls'
  refine ⟨r, Nat.lt_succ_of_lt h, ?_, hrest⟩
  rw [parseSegment, hr]
  · rfl
  · rintro _ _ _ rfl
    subst hls'
    exact absurd rfl (hks _ rfl).1
  · rintro _ _ _ rfl
    subst hls'
    exact absurd rfl (hks _ rfl).2

/-! ### Calls -/

theorem checkCall_allows {name : String} {args : List Term}
    (h : check?.Allows name args) (offset : Nat) :
    checkCall check? name offset args = .ok (name, args) := by
  obtain ⟨verify, hverify, hnone⟩ := h
  simp only [checkCall, hverify, hnone]

theorem parseCall_reads_nil {name : String} {offset : Nat} (h : check?.Allows name []) :
    Reads (parseCall check? stop name offset) (Symbol.rightParen.sign b :: ks) (name, []) ks := by
  intro ls hls
  obtain ⟨o, ls, rfl, hls'⟩ := exists_of_map_sign hls
  refine ⟨ls, Nat.lt_succ_self _, ?_, hls'⟩
  rw [parseCall, checkCall_allows h offset]
  rfl

theorem parseCall_reads {name : String} {offset : Nat} {args : List Term}
    (h : check?.Allows name args) (hks : ∀ s ∈ ks.head?, s.1 ≠ .symbol .rightParen)
    (hargs : Reads (parseList check? stop) ks args (Symbol.rightParen.sign b :: ks')) :
    Reads (parseCall check? stop name offset) ks (name, args) ks' := by
  intro ls hls
  obtain ⟨r, h₁, hr, hrest⟩ := hargs ls hls
  obtain ⟨r', h₂, hr', hrest'⟩ := expect_sign stop hrest
  refine ⟨r', Nat.lt_trans h₂ h₁, ?_, hrest'⟩
  rw [parseCall, hr]
  · simp only [bind, Except.bind, hr', checkCall_allows h offset]
    rfl
  · rintro _ _ _ rfl
    subst hls
    exact absurd rfl (hks _ rfl)

/-! ### Slices -/

theorem signedInteger_nil {ls : List Lexeme} {k : TokenKind}
    (hls : ls.map Lexeme.sign = (k, b) :: ks)
    (hk : ∀ i, k ≠ .integer i) (hminus : k ≠ .symbol .minus) :
    signedInteger ls = (none, ⟨ls, Nat.le_refl _⟩) := by
  obtain ⟨o, ls, rfl, _⟩ := exists_of_map_sign hls
  rw [signedInteger]
  · intro i _ _ _ heq
    cases heq
    exact hk i rfl
  · intro _ _ _ _ _ _ heq
    cases heq
    exact hminus rfl

theorem fitInt64?_neg_ofInt {i : Int64} {n : Nat} (hi : i ≠ Int64.minValue)
    (hint : i.toInt = Int.negSucc n) :
    fitInt64? (-(Int64.ofInt (n + 1 : Nat)).toInt) = some i := by
  have hle := i.le_toInt
  have hmin : i.toInt ≠ Int64.minValue.toInt := fun h => hi (Int64.toInt_inj.mp h)
  have hvalue : Int64.minValue.toInt = -0x8000000000000000 := by decide
  have hn : (Int64.ofInt (n + 1 : Nat)).toInt = (n + 1 : Nat) :=
    Int64.toInt_ofInt_of_le (by omega) (by omega)
  have hi : -((n + 1 : Nat) : Int) = i.toInt := by omega
  rw [hn, hi, fitInt64?, if_pos (by omega), Int64.ofInt_toInt]

/-- A bound is read in front of what is no integer. -/
theorem signedInteger_bound {i : Option Int64} (hi : boundWellFormed i) {s : Symbol}
    {ls : List Lexeme} (hs : s ≠ .minus)
    (hls : ls.map Lexeme.sign = boundSigns i ++ s.sign b :: ks) :
    ∃ rest h, signedInteger ls = (i, ⟨rest, h⟩) ∧ rest.map Lexeme.sign = s.sign b :: ks := by
  cases i with
  | none =>
    refine ⟨ls, Nat.le_refl _, ?_, hls⟩
    exact signedInteger_nil hls (by simp) (by simpa using hs)
  | some i =>
    simp only [boundSigns, intSigns] at hls
    cases hint : i.toInt with
    | ofNat n =>
      rw [hint] at hls
      obtain ⟨o, ls, rfl, hls'⟩ := exists_of_map_sign hls
      refine ⟨ls, Nat.le_succ _, ?_, hls'⟩
      have hn : Int64.ofInt n = i := by
        rw [← Int.ofNat_eq_natCast, ← hint, Int64.ofInt_toInt]
      rw [signedInteger, hn]
    | negSucc n =>
      rw [hint] at hls
      obtain ⟨o, ls, rfl, hls'⟩ := exists_of_map_sign hls
      obtain ⟨o', ls, rfl, hls''⟩ := exists_of_map_sign hls'
      refine ⟨ls, by simp; omega, ?_, hls''⟩
      rw [signedInteger, fitInt64?_neg_ofInt hi hint]

theorem colon?_some {ls : List Lexeme} (hls : ls.map Lexeme.sign = Symbol.colon.sign b :: ks) :
    ∃ rest h, colon? ls = some ⟨rest, h⟩ ∧ rest.map Lexeme.sign = ks := by
  obtain ⟨o, rest, rfl, hrest⟩ := exists_of_map_sign hls
  exact ⟨rest, Nat.lt_succ_self _, by rw [colon?], hrest⟩

theorem colon?_none {ls : List Lexeme} (hls : ls.map Lexeme.sign = ks)
    (hks : ∀ s ∈ ks.head?, s.1 ≠ .symbol .colon) : colon? ls = none := by
  unfold colon?
  split
  · subst hls
    exact absurd rfl (hks _ rfl)
  · rfl

theorem slice?_reads {first last step : Option Int64} (hfirst : boundWellFormed first)
    (hlast : boundWellFormed last) (hstep : boundWellFormed step) (hzero : step ≠ some 0)
    {ls : List Lexeme} (hls : ls.map Lexeme.sign =
      boundSigns first ++ Symbol.colon.sign false ::
        (boundSigns last ++ (stepSigns step ++ Symbol.rightBracket.sign b :: ks))) :
    ∃ rest h, slice? stop ls = .ok (some (.slice first last step, ⟨rest, h⟩)) ∧
      rest.map Lexeme.sign = Symbol.rightBracket.sign b :: ks := by
  obtain ⟨r₁, h₁, hr₁, hrest₁⟩ := signedInteger_bound hfirst (by decide) hls
  obtain ⟨r₂, h₂, hr₂, hrest₂⟩ := colon?_some hrest₁
  cases step with
  | none =>
    obtain ⟨r₃, h₃, hr₃, hrest₃⟩ := signedInteger_bound hlast (by decide) hrest₂
    have hcolon : colon? r₃ = none := colon?_none hrest₃ (by simp [Symbol.sign])
    obtain ⟨o, r₄, rfl, _⟩ := exists_of_map_sign hrest₃
    refine ⟨_, Nat.lt_of_le_of_lt h₃ (Nat.lt_of_lt_of_le h₂ h₁), ?_, hrest₃⟩
    rw [slice?, hr₁]
    simp only [hr₂]
    generalize signedInteger r₂ = last' at hr₃ ⊢
    subst hr₃
    simp [hcolon]
  | some i =>
    obtain ⟨r₃, h₃, hr₃, hrest₃⟩ := signedInteger_bound hlast (by decide) hrest₂
    obtain ⟨r₄, h₄, hr₄, hrest₄⟩ := colon?_some hrest₃
    have hbound : r₄.map Lexeme.sign = boundSigns (some i) ++ Symbol.rightBracket.sign b :: ks :=
      hrest₄
    obtain ⟨r₅, h₅, hr₅, hrest₅⟩ := signedInteger_bound hstep (by decide) hbound
    obtain ⟨o, r₆, rfl, _⟩ := exists_of_map_sign hrest₅
    have hlen : (⟨.symbol .rightBracket, o, b⟩ :: r₆ : List Lexeme).length < ls.length := by
      omega
    refine ⟨_, hlen, ?_, hrest₅⟩
    rw [slice?, hr₁]
    simp only [hr₂]
    generalize signedInteger r₂ = last' at hr₃ ⊢
    subst hr₃
    simp only [hr₄, hr₅, hzero, if_false, List.head?_cons, Option.map_some, if_true]

/-- Whether the brackets after these lexemes would hold a slice. -/
def beginsSlice : List Sign → Bool
  | (.symbol .colon, _) :: _ => true
  | (.integer _, _) :: (.symbol .colon, _) :: _ => true
  | (.symbol .minus, _) :: (.integer _, _) :: (.symbol .colon, _) :: _ => true
  | _ => false

/-- What is left after a bound begins with a colon only if the lexemes begin like a slice. -/
theorem signedInteger_colon {ls rest : List Lexeme} {o : Nat} {s : Bool}
    (hrest : (signedInteger ls).2.1 = ⟨.symbol .colon, o, s⟩ :: rest) :
    beginsSlice (ls.map Lexeme.sign) = true := by
  unfold signedInteger at hrest
  split at hrest
  · subst hrest
    rfl
  · next i _ _ _ =>
    revert hrest
    cases fitInt64? (-i.toInt) with
    | none =>
      intro h
      cases h
    | some n =>
      rintro rfl
      rfl
  · subst hrest
    rfl

theorem slice?_none (stop : Nat) {ls : List Lexeme} (hls : ls.map Lexeme.sign = ks)
    (hks : beginsSlice ks = false) : slice? stop ls = .ok none := by
  subst hls
  have hcolon : colon? (signedInteger ls).2.1 = none := by
    refine colon?_none rfl fun k hk heq => ?_
    cases hrest : (signedInteger ls).2.1 with
    | nil => simp [hrest] at hk
    | cons l rest =>
      obtain ⟨kind, o, s⟩ := l
      rw [hrest] at hk
      cases hk
      cases heq
      rw [signedInteger_colon hrest] at hks
      cases hks
  rw [slice?]
  simp only [hcolon]

/-! ### Selectors -/

theorem parseDotted_reads_name {name : String} :
    Reads (parseDotted check? stop) ((.name name, b) :: ks) (.child name) ks := by
  intro ls hls
  obtain ⟨o, ls, rfl, hls'⟩ := exists_of_map_sign hls
  exact ⟨ls, Nat.lt_succ_self _, by rw [parseDotted], hls'⟩

theorem parseDotted_reads_star :
    Reads (parseDotted check? stop) (Symbol.star.sign b :: ks) .wildcard ks := by
  intro ls hls
  obtain ⟨o, ls, rfl, hls'⟩ := exists_of_map_sign hls
  exact ⟨ls, Nat.lt_succ_self _, by rw [parseDotted], hls'⟩

theorem parseDotted_reads_call {name : String} {args : List Term}
    (h : ∀ offset, Reads (parseCall check? stop name offset) ks (name, args) ks') :
    Reads (parseDotted check? stop) ((.function name, b) :: ks) (.call name args) ks' := by
  intro ls hls
  obtain ⟨o, ls, rfl, hls'⟩ := exists_of_map_sign hls
  obtain ⟨r, hlen, hr, hrest⟩ := h o ls hls'
  refine ⟨r, Nat.lt_succ_of_lt hlen, ?_, hrest⟩
  rw [parseDotted, hr]
  rfl

theorem parseBracket_reads_anyIndex {b' : Bool} :
    Reads (parseBracket check? stop) (Symbol.star.sign b :: Symbol.rightBracket.sign b' :: ks)
      .anyIndex ks := by
  intro ls hls
  obtain ⟨o, ls, rfl, hls'⟩ := exists_of_map_sign hls
  obtain ⟨o', ls, rfl, hls''⟩ := exists_of_map_sign hls'
  exact ⟨ls, Nat.lt_succ_of_lt (Nat.lt_succ_self _), by rw [parseBracket], hls''⟩

theorem parseBracket_reads_index {i : Int64} {b' : Bool} :
    Reads (parseBracket check? stop) ((.integer i, b) :: Symbol.rightBracket.sign b' :: ks)
      (.index i) ks := by
  intro ls hls
  obtain ⟨o, ls, rfl, hls'⟩ := exists_of_map_sign hls
  obtain ⟨o', ls, rfl, hls''⟩ := exists_of_map_sign hls'
  exact ⟨ls, Nat.lt_succ_of_lt (Nat.lt_succ_self _), by rw [parseBracket], hls''⟩

theorem parseBracket_reads_string {s : String} {b' : Bool} :
    Reads (parseBracket check? stop) ((.string s, b) :: Symbol.rightBracket.sign b' :: ks)
      (.child s) ks := by
  intro ls hls
  obtain ⟨o, ls, rfl, hls'⟩ := exists_of_map_sign hls
  obtain ⟨o', ls, rfl, hls''⟩ := exists_of_map_sign hls'
  exact ⟨ls, Nat.lt_succ_of_lt (Nat.lt_succ_self _), by rw [parseBracket], hls''⟩

theorem parseBracket_reads_filter {t : Term} {b' : Bool}
    (h : Reads (parseExpr check? stop) ks t (Symbol.rightBracket.sign b' :: ks')) :
    Reads (parseBracket check? stop) (Symbol.question.sign b :: ks) (.filter t) ks' := by
  intro ls hls
  obtain ⟨o, ls, rfl, hls'⟩ := exists_of_map_sign hls
  obtain ⟨r, h₁, hr, hrest⟩ := h ls hls'
  obtain ⟨r', h₂, hr', hrest'⟩ := expect_sign stop hrest
  refine ⟨r', Nat.lt_succ_of_lt (Nat.lt_trans h₂ h₁), ?_, hrest'⟩
  rw [parseBracket, hr]
  simp only [bind, Except.bind, hr']
  rfl

/-- Whether the brackets after these lexemes would hold a selector that is no expression. -/
def isDirect : List Sign → Bool
  | (.symbol .star, _) :: (.symbol .rightBracket, _) :: _ => true
  | (.integer _, _) :: (.symbol .rightBracket, _) :: _ => true
  | (.string _, _) :: (.symbol .rightBracket, _) :: _ => true
  | (.symbol .question, _) :: _ => true
  | _ => false

theorem parseBracket_reads_slice {s : Segment} (hdirect : isDirect ks = false)
    (h : ∀ ls, ls.map Lexeme.sign = ks → ∃ rest hr, slice? stop ls = .ok (some (s, ⟨rest, hr⟩)) ∧
      rest.map Lexeme.sign = Symbol.rightBracket.sign b :: ks') :
    Reads (parseBracket check? stop) ks s ks' := by
  intro ls hls
  obtain ⟨r, h₁, hr, hrest⟩ := h ls hls
  obtain ⟨r', h₂, hr', hrest'⟩ := expect_sign stop hrest
  refine ⟨r', Nat.lt_trans h₂ h₁, ?_, hrest'⟩
  subst hls
  rw [parseBracket, hr]
  · simp only [bind, Except.bind, hr']
    rfl
  all_goals
    intros
    subst_vars
    cases hdirect

theorem parseBracket_reads_expr {t : Term} (hdirect : isDirect ks = false)
    (hslice : beginsSlice ks = false)
    (h : Reads (parseExpr check? stop) ks t (Symbol.rightBracket.sign b :: ks')) :
    Reads (parseBracket check? stop) ks (bracketSegment t) ks' := by
  intro ls hls
  have hnone := slice?_none stop hls hslice
  obtain ⟨r, h₁, hr, hrest⟩ := h ls hls
  obtain ⟨r', h₂, hr', hrest'⟩ := expect_sign stop hrest
  refine ⟨r', Nat.lt_trans h₂ h₁, ?_, hrest'⟩
  subst hls
  rw [parseBracket, hnone]
  · simp only [bind, Except.bind, hr, hr']
    rfl
  all_goals
    intros
    subst_vars
    cases hdirect

/-! ### Primaries -/

theorem parsePrimary_reads_call {name : String} {args : List Term}
    (h : ∀ offset, Reads (parseCall check? stop name offset) ks (name, args) ks') :
    Reads (parsePrimary check? stop) ((.function name, b) :: ks) (.call name args) ks' := by
  intro ls hls
  obtain ⟨o, ls, rfl, hls'⟩ := exists_of_map_sign hls
  obtain ⟨r, hlen, hr, hrest⟩ := h o ls hls'
  refine ⟨r, Nat.lt_succ_of_lt hlen, ?_, hrest⟩
  rw [parsePrimary, hr]
  rfl

theorem parsePrimary_reads_group {ts : List Term} {b' : Bool}
    (h : Reads (parseList check? stop) ks ts (Symbol.rightParen.sign b' :: ks')) :
    Reads (parsePrimary check? stop) (Symbol.leftParen.sign b :: ks) (groupTerm ts) ks' := by
  intro ls hls
  obtain ⟨o, ls, rfl, hls'⟩ := exists_of_map_sign hls
  obtain ⟨r, h₁, hr, hrest⟩ := h ls hls'
  obtain ⟨r', h₂, hr', hrest'⟩ := expect_sign stop hrest
  refine ⟨r', Nat.lt_succ_of_lt (Nat.lt_trans h₂ h₁), ?_, hrest'⟩
  rw [parsePrimary, hr]
  simp only [bind, Except.bind, hr']
  rfl

theorem parsePrimary_reads_atom {k : TokenKind} {t : Term} (h : atom? k = some t) :
    Reads (parsePrimary check? stop) ((k, b) :: ks) t ks := by
  intro ls hls
  obtain ⟨o, ls, rfl, hls'⟩ := exists_of_map_sign hls
  refine ⟨ls, Nat.lt_succ_self _, ?_, hls'⟩
  rw [parsePrimary]
  · split
    · next t' ht =>
      rw [h] at ht
      cases ht
      rfl
    · next hnone =>
      rw [h] at hnone
      cases hnone
  · intro _ _ _ heq
    cases heq
    cases h
  · intro _ _ heq
    cases heq
    cases h

theorem parsePrimary_reads_segment {k : TokenKind} {s : Segment} (hk : beginsSegment k = true)
    (h : ReadsSegment check? stop ((k, b) :: ks) s ks') :
    Reads (parsePrimary check? stop) ((k, b) :: ks) (contextPath [s]) ks' := by
  intro ls hls
  obtain ⟨r, hlen, hr, hrest⟩ := h ls hls
  obtain ⟨o, ls, rfl, _⟩ := exists_of_map_sign hls
  refine ⟨r, hlen, ?_, hrest⟩
  have hnone : atom? k = none := by
    cases k with
    | symbol s => cases s <;> first | rfl | cases hk
    | _ => cases hk
  rw [parsePrimary]
  · split
    · next t' ht =>
      rw [hnone] at ht
      cases ht
    · rw [hr]
      rfl
  · intro _ _ _ heq
    cases heq
    cases hk
  · intro _ _ heq
    cases heq
    cases hk

end
end Parser
end PathQuery
