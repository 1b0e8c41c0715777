import PathQuery.Proofs.Expression.Reread

/-!
# Reading canonical texts

The parser reads the lexemes of a canonical text as `Term.reread` says. A term that begins with no
sign is read as a base, before any postfix or power; every term is read as an operand.
-/

namespace PathQuery

open PathQuery.Parser

/-! ### What may follow -/

/-- No segment is attached in front of these lexemes. -/
def Detached (ks : List Sign) : Prop :=
  ∀ s ∈ ks.head?, s.2 = false → beginsSegment s.1 = false

/-- These lexemes do not go on with a power. -/
def NoPower (ks : List Sign) : Prop :=
  ∀ s ∈ ks.head?, s.1 ≠ .symbol .starStar

/-- The symbols that end an expression. -/
def enders : List Symbol := [.comma, .rightParen, .rightBracket, .colon]

/-- These lexemes go on with none, or with one that ends an expression. -/
def Closed (ks : List Sign) : Prop :=
  ∀ s ∈ ks.head?, ∃ e ∈ enders, s.1 = .symbol e

theorem Closed.of_kind {ks : List Sign} (h : Closed ks) {p : TokenKind → Prop}
    (hp : ∀ e ∈ enders, p (.symbol e)) : ∀ s ∈ ks.head?, p s.1 := by
  intro s hs
  obtain ⟨e, he, hk⟩ := h s hs
  rw [hk]
  exact hp e he

theorem Closed.detached {ks : List Sign} (h : Closed ks) : Detached ks := fun s hs _ =>
  h.of_kind (p := fun k => beginsSegment k = false) (by decide) s hs

theorem Closed.noPower {ks : List Sign} (h : Closed ks) : NoPower ks :=
  h.of_kind (p := fun k => k ≠ .symbol .starStar) (by decide)

theorem Closed.cons {s : Symbol} (hs : s ∈ enders) (b : Bool) (ks : List Sign) :
    Closed (s.sign b :: ks) := by
  rintro _ ⟨⟩
  exact ⟨s, hs, rfl⟩

theorem Closed.nil : Closed [] := by
  rintro _ ⟨⟩

theorem detached_op (op : BinaryOp) (ks : List Sign) : Detached (op.symbol.sign true :: ks) := by
  rintro _ ⟨⟩ h
  cases h

theorem noPower_op {op : BinaryOp} (hop : op ≠ .pow) (ks : List Sign) :
    NoPower (op.symbol.sign true :: ks) := by
  rintro _ ⟨⟩
  cases op <;> first | exact absurd rfl hop | simp [Symbol.sign, BinaryOp.symbol]

theorem binaryOp?_symbol {op : BinaryOp} (hop : op ≠ .pow) :
    binaryOp? (.symbol op.symbol) = some op := by
  cases op <;> first | exact absurd rfl hop | rfl

theorem one_le_precedence (op : BinaryOp) : 1 ≤ op.precedence := by
  cases op <;> decide

/-! ### How terms are read -/

section

variable (check? : Signatures) (stop : Nat)

/-- The lexemes of `t` are read as `t'`. -/
structure Term.IsRead (t t' : Term) : Prop where
  operand : ∀ b {ks}, Detached ks → NoPower ks →
    Reads (parseUnary check? stop) (t.signs b ++ ks) t' ks
  base : t.isSigned = false → ∀ b {ks}, Detached ks →
    Reads (parsePostfix check? stop) (t.signs b ++ ks) t' ks

/-- The lexemes of `s` are read as `s'`: after something, after two points, and at the head of a
path. -/
structure Segment.IsRead (s s' : Segment) : Prop where
  attached : ∀ b ks, ReadsSegment check? stop (s.signs false b ++ ks) s' ks
  selected : s.isSelector = true → ∀ b ks,
    ReadsSegment check? stop (Symbol.dotDot.sign b :: (s.signs true false ++ ks)) (.recursive s') ks
  leading : ∀ b ks, Reads (parsePrimary check? stop) (s.signs true b ++ ks) (headTerm s') ks

end

section

variable {check? : Signatures} {stop : Nat} {t t' : Term}

/-- A term without a sign before it does not begin with a prefix operator. -/
theorem operand_of_power (h : t.WellFormed check?) (hsigned : t.isSigned = false) {b : Bool}
    {ks ks' : List Sign} (hpower : Reads (parsePower check? stop) (t.signs b ++ ks) t' ks') :
    Reads (parseUnary check? stop) (t.signs b ++ ks) t' ks' := by
  obtain ⟨k, tail, hsigns, hopens⟩ := t.exists_opens h b
  refine parseUnary_reads hpower ?_
  rw [hsigns]
  rintro _ ⟨⟩
  have hsign (hk : k = .symbol .bang ∨ k = .symbol .minus) : False := by
    rw [hopens.isSigned hk] at hsigned
    cases hsigned
  exact ⟨fun hk => hsign (.inl hk), fun hk => hsign (.inr hk)⟩

theorem Term.IsRead.of_base (h : t.WellFormed check?) (hsigned : t.isSigned = false)
    (hbase : ∀ b {ks}, Detached ks → Reads (parsePostfix check? stop) (t.signs b ++ ks) t' ks) :
    t.IsRead check? stop t' :=
  ⟨fun b {_} hks hpower => operand_of_power h hsigned (parsePower_reads (hbase b hks) hpower),
    fun _ b {_} hks => hbase b hks⟩

theorem Term.IsRead.of_signed (hsigned : t.isSigned = true)
    (hoperand : ∀ b {ks}, Detached ks → NoPower ks →
      Reads (parseUnary check? stop) (t.signs b ++ ks) t' ks) :
    t.IsRead check? stop t' := by
  refine ⟨hoperand, fun h => ?_⟩
  rw [hsigned] at h
  cases h

theorem expr_of_operand {ks ks' : List Sign} (h : Reads (parseUnary check? stop) ks t' ks')
    (hks : Closed ks') : Reads (parseExpr check? stop) ks t' ks' :=
  parseExpr_reads
    (parseBinary_reads h
      (climb_reads_stop (hks.of_kind (p := fun k => binaryOp? k = none) (by decide))))
    (hks.of_kind (p := fun k => k ≠ .symbol .question) (by decide))

theorem Term.IsRead.expr (h : t.IsRead check? stop t') (b : Bool) {ks : List Sign}
    (hks : Closed ks) : Reads (parseExpr check? stop) (t.signs b ++ ks) t' ks :=
  expr_of_operand (h.operand b hks.detached hks.noPower) hks

theorem base_of_primary {ks ks' : List Sign} (h : Reads (parsePrimary check? stop) ks t' ks')
    (hks : Detached ks') : Reads (parsePostfix check? stop) ks t' ks' := by
  show Reads (parsePostfix check? stop) ks (extendPath t' []) ks'
  exact parsePostfix_reads h (parseSegments_reads_nil hks)

theorem group_reads {ks ks' : List Sign} {b b' : Bool}
    (h : Reads (parseExpr check? stop) ks t' (Symbol.rightParen.sign b' :: ks')) :
    Reads (parsePrimary check? stop) (Symbol.leftParen.sign b :: ks) t' ks' := by
  show Reads (parsePrimary check? stop) (Symbol.leftParen.sign b :: ks) (groupTerm [t']) ks'
  exact parsePrimary_reads_group (parseList_reads h (parseMore_reads_nil (by simp [Symbol.sign])))

theorem operand_of_group {ks ks' : List Sign} {b : Bool}
    (h : Reads (parsePrimary check? stop) (Symbol.leftParen.sign b :: ks) t' ks')
    (hks : Detached ks') (hpower : NoPower ks') :
    Reads (parseUnary check? stop) (Symbol.leftParen.sign b :: ks) t' ks' :=
  parseUnary_reads (parsePower_reads (base_of_primary h hks) hpower)
    (by rintro _ ⟨⟩; simp [Symbol.sign])

/-! ### Literals -/

theorem literal_reads {v : Scalar} (k : TokenKind) (hv : v.WellFormed)
    (hsigned : (Term.literal v).isSigned = false) (hsigns : ∀ b, v.signs b = [(k, b)])
    (hk : atom? k = some t') : (Term.literal v).IsRead check? stop t' := by
  refine .of_base (by simpa only [Term.WellFormed] using hv) hsigned fun b ks hks => ?_
  simp only [Term.signs, hsigns, List.singleton_append]
  exact base_of_primary (parsePrimary_reads_atom hk) hks

theorem signed_reads {v : Scalar} (k : TokenKind) (hsigned : (Term.literal v).isSigned = true)
    (hsigns : ∀ b, v.signs b = [Symbol.minus.sign b, (k, false)]) (hk : atom? k = some t) :
    (Term.literal v).IsRead check? stop (applyUnary .neg t) := by
  refine .of_signed hsigned fun b ks hks hpower => ?_
  simp only [Term.signs, hsigns, List.cons_append, List.nil_append]
  have hk' : ∀ s ∈ ((k, false) :: ks).head?, s.1 ≠ .symbol .bang ∧ s.1 ≠ .symbol .minus := by
    rintro _ ⟨⟩
    constructor <;> rintro rfl <;> cases hk
  have hoperand : Reads (parseUnary check? stop) ((k, false) :: ks) t ks :=
    parseUnary_reads
      (parsePower_reads (base_of_primary (parsePrimary_reads_atom hk) hks) hpower) hk'
  exact parseUnary_reads_op .neg hoperand

theorem isSigned_real {r : Float} (hr : r.isNaN = false) :
    (Term.literal (.real r)).isSigned = decide (Binary64.signBit ≤ r.toBits.toNat) := by
  simp only [Term.isSigned, hr, Bool.not_false, Bool.and_true]

theorem real_isRead {r : Float} (hr : r.isNaN = false) :
    (Term.literal (.real r)).IsRead check? stop (realTerm r) := by
  unfold realTerm
  cases hx : Binary64.ofFloat? r with
  | some x =>
    have hsigned : (Term.literal (.real r)).isSigned = x.negative := by
      rw [isSigned_real hr, Binary64.negative_of_ofFloat? hx]
    simp only
    cases hnegative : x.negative with
    | true =>
      refine signed_reads (.real x.reread) (hsigned.trans hnegative) (fun b => ?_) rfl
      simp only [Scalar.signs, realSigns, hx, hnegative, if_true]
    | false =>
      refine literal_reads (.real x.reread) hr (hsigned.trans hnegative) (fun b => ?_) rfl
      simp only [Scalar.signs, realSigns, hx, hnegative, Bool.false_eq_true, if_false]
  | none =>
    simp only [hr, Bool.false_eq_true, if_false]
    rcases Binary64.infinite_cases hx hr with rfl | rfl
    · rw [if_neg Binary64.infinity_lt_zero]
      refine literal_reads (.name "inf") hr ?_ (fun b => ?_) rfl
      · rw [isSigned_real hr, Binary64.toBits_infinity]
        decide
      · simp only [Scalar.signs, realSigns, hx, hr, Binary64.infinity_lt_zero, Bool.false_eq_true,
          if_false]
    · rw [if_pos Binary64.neg_infinity_lt_zero]
      refine signed_reads (.name "inf") ?_ (fun b => ?_) rfl
      · rw [isSigned_real hr, Binary64.toBits_neg_infinity]
        decide
      · simp only [Scalar.signs, realSigns, hx, hr, Binary64.neg_infinity_lt_zero,
          Bool.false_eq_true, if_false, if_true]

theorem int_isRead {i : Int64} (hi : i ≠ Int64.minValue) :
    (Term.literal (.int i)).IsRead check? stop (.literal (.int i)) := by
  have hsigned : (Term.literal (.int i)).isSigned = decide (i.toInt < 0) := rfl
  cases hint : i.toInt with
  | ofNat n =>
    have hn : Int64.ofInt n = i := by
      rw [← Int.ofNat_eq_natCast, ← hint, Int64.ofInt_toInt]
    refine literal_reads (.integer (Int64.ofInt n)) hi ?_ (fun b => ?_) (by rw [hn]; rfl)
    · rw [hsigned, hint, decide_eq_false_iff_not, Int.ofNat_eq_natCast]
      omega
    · simp only [Scalar.signs, intSigns, hint]
  | negSucc n =>
    have hneg : applyUnary .neg (.literal (.int (Int64.ofInt (n + 1 : Nat)))) =
        .literal (.int i) := by
      simp only [applyUnary, fitInt64?_neg_ofInt hi hint]
    have hread : (Term.literal (.int i)).IsRead check? stop
        (applyUnary .neg (.literal (.int (Int64.ofInt (n + 1 : Nat))))) := by
      refine signed_reads (.integer (Int64.ofInt (n + 1 : Nat))) ?_ (fun b => ?_) rfl
      · rw [hsigned, hint, decide_eq_true_eq]
        omega
      · simp only [Scalar.signs, intSigns, hint]
    rwa [hneg] at hread

theorem Scalar.isRead {v : Scalar} (hv : v.WellFormed) :
    (Term.literal v).IsRead check? stop v.reread := by
  cases v with
  | null => exact literal_reads (.name "null") hv rfl (fun _ => rfl) rfl
  | bool b => cases b <;> exact literal_reads (.name _) hv rfl (fun _ => rfl) rfl
  | str s => exact literal_reads (.string s) hv rfl (fun _ => rfl) rfl
  | int i => exact int_isRead hv
  | real r => exact real_isRead hv

/-! ### Segments -/

variable {s s' : Segment}

theorem Segment.IsRead.of_bracket (inside : List Sign)
    (hsigns : ∀ leading b, s.signs leading b = Symbol.leftBracket.sign b :: inside)
    (hhead : headTerm s' = contextPath [s'])
    (h : ∀ ks, Reads (parseBracket check? stop) (inside ++ ks) s' ks) :
    s.IsRead check? stop s' := by
  refine ⟨fun b ks => ?_, fun _ b ks => ?_, fun b ks => ?_⟩
  · rw [hsigns]
    exact parseSegment_reads_bracket (h ks)
  · rw [hsigns]
    exact parseSegment_reads_dotDot_bracket (h ks)
  · rw [hsigns, hhead]
    exact parsePrimary_reads_segment rfl (parseSegment_reads_bracket (h ks))

/-- A segment that is written after points, or by itself at the head of a path. -/
theorem Segment.IsRead.of_dotted (k : TokenKind) (tail : List Sign)
    (hsigns : ∀ leading b, s.signs leading b = dottedSigns leading b k ++ tail)
    (hk : k ≠ .symbol .star ∧ k ≠ .symbol .leftBracket)
    (h : ∀ b ks, Reads (parseDotted check? stop) ((k, b) :: (tail ++ ks)) s' ks)
    (hleading : ∀ b ks,
      Reads (parsePrimary check? stop) ((k, b) :: (tail ++ ks)) (headTerm s') ks) :
    s.IsRead check? stop s' := by
  refine ⟨fun b ks => ?_, fun _ b ks => ?_, fun b ks => ?_⟩
  · rw [hsigns, List.append_assoc]
    exact parseSegment_reads_dot (h false ks)
  · rw [hsigns, List.append_assoc]
    refine parseSegment_reads_dotDot (h false ks) ?_
    rintro _ ⟨⟩
    exact hk
  · rw [hsigns, List.append_assoc]
    exact hleading b ks

theorem nameTerm_of_isPlainName {name : String} (h : isPlainName name = true) :
    nameTerm name = contextPath [.child name] := by
  have hwords : name ∉ ["true", "false", "null"] := by
    unfold isPlainName at h
    split at h
    · cases h
    · simp only [Bool.and_eq_true, Bool.not_eq_true', List.contains_eq_mem,
        decide_eq_false_iff_not] at h
      exact h.2
  simp only [List.mem_cons, List.not_mem_nil, or_false, not_or] at hwords
  rw [nameTerm, if_neg hwords.1, if_neg hwords.2.1, if_neg hwords.2.2]

theorem Segment.IsRead.child (name : String) :
    (Segment.child name).IsRead check? stop (.child name) := by
  by_cases hname : isPlainName name = true
  · refine .of_dotted (.name name) [] (fun leading b => ?_) (by simp)
      (fun b ks => parseDotted_reads_name)
      (fun b ks => parsePrimary_reads_atom (congrArg some (nameTerm_of_isPlainName hname)))
    simp only [Segment.signs, if_pos hname, List.append_nil]
  · refine .of_bracket [(.string name, false), Symbol.rightBracket.sign false]
      (fun leading b => ?_) rfl (fun ks => parseBracket_reads_string)
    simp only [Segment.signs, if_neg hname]

theorem Segment.IsRead.index {i : Int64} (hi : i ≠ Int64.minValue) :
    (Segment.index i).IsRead check? stop (.index i) := by
  refine .of_bracket _ (fun leading b => rfl) rfl (fun ks => ?_)
  rw [List.append_assoc]
  cases hint : i.toInt with
  | ofNat n =>
    have hn : Int64.ofInt n = i := by
      rw [← Int.ofNat_eq_natCast, ← hint, Int64.ofInt_toInt]
    simp only [intSigns, hint, hn]
    exact parseBracket_reads_index
  | negSucc n =>
    have hint' : (Term.literal (.int i)).IsRead check? stop (.literal (.int i)) := int_isRead hi
    have hexpr := hint'.expr false (.cons (s := .rightBracket) (by decide) false ks)
    simp only [Term.signs, Scalar.signs, intSigns, hint] at hexpr ⊢
    exact parseBracket_reads_expr rfl rfl hexpr

theorem Segment.IsRead.anyIndex : Segment.anyIndex.IsRead check? stop .anyIndex :=
  .of_bracket _ (fun _ _ => rfl) rfl (fun _ => parseBracket_reads_anyIndex)

theorem Segment.IsRead.wildcard : Segment.wildcard.IsRead check? stop .wildcard :=
  ⟨fun _ _ => parseSegment_reads_dot parseDotted_reads_star, (fun h => by cases h),
    fun _ _ => parsePrimary_reads_atom rfl⟩

theorem Segment.IsRead.recursive (h : s.IsRead check? stop s') (hs : s.isSelector = true) :
    (Segment.recursive s).IsRead check? stop (.recursive s') :=
  ⟨fun b ks => h.selected hs b ks, (fun h => by cases h),
    fun b ks => parsePrimary_reads_segment rfl (h.selected hs b ks)⟩

theorem Segment.IsRead.recursiveWildcard :
    Segment.recursiveWildcard.IsRead check? stop .recursiveWildcard :=
  ⟨fun _ _ => parseSegment_reads_dotDotStar, (fun h => by cases h),
    fun _ _ => parsePrimary_reads_segment rfl parseSegment_reads_dotDotStar⟩

theorem Segment.IsRead.slice {first last step : Option Int64}
    (h : (Segment.slice first last step).WellFormed check?) :
    (Segment.slice first last step).IsRead check? stop (.slice first last step) := by
  simp only [Segment.WellFormed] at h
  refine .of_bracket _ (fun leading b => rfl) rfl (fun ks => ?_)
  simp only [List.append_assoc, List.cons_append, List.nil_append]
  refine parseBracket_reads_slice ?_ fun ls hls => slice?_reads h.1 h.2.1 h.2.2.1 h.2.2.2 hls
  -- what stands before the first colon is no selector of its own
  cases first with
  | none => rfl
  | some i =>
    simp only [boundSigns, intSigns]
    cases i.toInt <;> rfl

theorem Segment.IsRead.filter (h : t.IsRead check? stop t') :
    (Segment.filter t).IsRead check? stop (.filter t') := by
  refine .of_bracket _ (fun leading b => rfl) rfl (fun ks => ?_)
  simp only [List.append_assoc, List.cons_append, List.nil_append]
  have hks : Closed (Symbol.rightBracket.sign false :: ks) := .cons (by decide) false ks
  have hgroup : Reads (parsePrimary check? stop)
      (Symbol.leftParen.sign false :: (t.signs false ++ Symbol.rightParen.sign false ::
        Symbol.rightBracket.sign false :: ks)) t' (Symbol.rightBracket.sign false :: ks) :=
    group_reads (h.expr false (.cons (by decide) false _))
  exact parseBracket_reads_filter
    (expr_of_operand (operand_of_group hgroup hks.detached hks.noPower) hks)

theorem bracketSegment_of_isKey (h : t.isKey = false) : bracketSegment t = .predicate t := by
  cases t with
  | literal v => cases v <;> first | rfl | cases h
  | _ => rfl

theorem bracketed_of_ne (h : t ≠ .path .context [.wildcard]) : bracketed t t' = .predicate t' := by
  unfold bracketed
  split
  · exact absurd rfl h
  · rfl

theorem Segment.IsRead.predicate (ht : t.WellFormed check?) (hkey : t.isKey = false)
    (hkey' : t'.isKey = false) (h : t.IsRead check? stop t') :
    (Segment.predicate t).IsRead check? stop (bracketed t t') := by
  refine .of_bracket _ (fun leading b => rfl) ?_ (fun ks => ?_)
  · unfold bracketed
    split <;> rfl
  · simp only [List.append_assoc, List.cons_append, List.nil_append]
    by_cases hstar : t = .path .context [.wildcard]
    · subst hstar
      exact parseBracket_reads_anyIndex
    · rw [bracketed_of_ne hstar, ← bracketSegment_of_isKey hkey']
      exact parseBracket_reads_expr (t.isDirect_signs ht hkey false ks hstar)
        (t.beginsSlice_signs ht hkey false ks) (h.expr false (.cons (by decide) false ks))

theorem Segment.IsRead.call {name : String} {args args' : List Term}
    (h : ∀ offset ks, Reads (parseCall check? stop name offset)
      (termsSigns args ++ Symbol.rightParen.sign false :: ks) (name, args') ks) :
    (Segment.call name args).IsRead check? stop (.call name args') := by
  have happend (ks : List Sign) : (termsSigns args ++ [Symbol.rightParen.sign false]) ++ ks =
      termsSigns args ++ Symbol.rightParen.sign false :: ks := by
    rw [List.append_assoc, List.singleton_append]
  refine .of_dotted (.function name) _ (fun leading b => rfl) (by simp) (fun b ks => ?_)
    (fun b ks => ?_)
  · rw [happend]
    exact parseDotted_reads_call fun offset => h offset ks
  · rw [happend]
    exact parsePrimary_reads_call fun offset => h offset ks

/-! ### Paths and calls -/

def SegmentsAreRead (check? : Signatures) (stop : Nat) (ss ss' : List Segment) : Prop :=
  ∀ ks, Detached ks → Reads (parseSegments check? stop) (segmentsSigns false false ss ++ ks) ss' ks

variable {ss ss' : List Segment}

theorem SegmentsAreRead.nil : SegmentsAreRead check? stop [] [] :=
  fun _ hks => parseSegments_reads_nil hks

theorem SegmentsAreRead.cons (hs : s.IsRead check? stop s')
    (hss : SegmentsAreRead check? stop ss ss') :
    SegmentsAreRead check? stop (s :: ss) (s' :: ss') := by
  intro ks hks
  have hattached := hs.attached false (segmentsSigns false false ss ++ ks)
  obtain ⟨k, tail, hsigns, _⟩ := s.exists_begins false
  rw [segmentsSigns, List.append_assoc]
  rw [hsigns, List.cons_append] at hattached ⊢
  exact parseSegments_reads_cons hattached (hss ks hks)

theorem extendPath_path (start : Start) (ss : List Segment) :
    extendPath (.path start []) ss = .path start ss := by
  cases ss <;> rfl

/-- A path that starts with a lexeme of its own. -/
theorem Term.IsRead.path {start : Start} (k : TokenKind)
    (h : (Term.path start ss).WellFormed check?) (hleading : start.isLeading = false)
    (hsigns : ∀ b, start.signs b = [(k, b)]) (hk : atom? k = some (.path start []))
    (hss : SegmentsAreRead check? stop ss ss') :
    (Term.path start ss).IsRead check? stop (.path start ss') := by
  refine .of_base h rfl fun b ks hks => ?_
  rw [← extendPath_path start ss', Term.signs, hsigns, hleading, Bool.false_and]
  exact parsePostfix_reads (parsePrimary_reads_atom hk) (hss ks hks)

theorem Term.IsRead.context (h : (Term.path .context (s :: ss)).WellFormed check?)
    (hs : s.IsRead check? stop s') (hss : SegmentsAreRead check? stop ss ss') :
    (Term.path .context (s :: ss)).IsRead check? stop (extendPath (headTerm s') ss') := by
  refine .of_base h rfl fun b ks hks => ?_
  simp only [Term.signs, Start.signs, Start.isLeading, segmentsSigns, Bool.true_and,
    List.nil_append, List.append_assoc]
  exact parsePostfix_reads (hs.leading b _) (hss ks hks)

theorem Term.IsRead.term (h : (Term.path (.term t) ss).WellFormed check?)
    (ht : t.IsRead check? stop t') (hss : SegmentsAreRead check? stop ss ss') :
    (Term.path (.term t) ss).IsRead check? stop (extendPath t' ss') := by
  refine .of_base h rfl fun b ks hks => ?_
  simp only [Term.signs, Start.signs, Start.isLeading, Bool.false_and, List.cons_append,
    List.append_assoc, List.nil_append]
  exact parsePostfix_reads (group_reads (ht.expr false (.cons (by decide) false _))) (hss ks hks)

theorem Term.IsRead.call {name : String} {args args' : List Term}
    (hcall : (Term.call name args).WellFormed check?)
    (h : ∀ offset ks, Reads (parseCall check? stop name offset)
      (termsSigns args ++ Symbol.rightParen.sign false :: ks) (name, args') ks) :
    (Term.call name args).IsRead check? stop (.call name args') := by
  refine .of_base hcall rfl fun b ks hks => ?_
  simp only [Term.signs, List.cons_append, List.append_assoc, List.nil_append]
  exact base_of_primary (parsePrimary_reads_call fun offset => h offset ks) hks

/-! ### Operators -/

theorem applyUnary_of_isNumber {op : UnaryOp} (h : op = .neg → t.isNumber = false) :
    applyUnary op t = .unary op t := by
  cases op with
  | not => rfl
  | neg =>
    cases t with
    | literal v => cases v <;> first | rfl | cases h rfl
    | _ => rfl

theorem Term.IsRead.unary {op : UnaryOp} (hnumber : op = .neg → t'.isNumber = false)
    (h : t.IsRead check? stop t') : (Term.unary op t).IsRead check? stop (.unary op t') := by
  refine .of_signed rfl fun b ks hks hpower => ?_
  rw [← applyUnary_of_isNumber hnumber]
  exact parseUnary_reads_op op (h.operand false hks hpower)

theorem Term.IsRead.of_group (inside : List Sign) (h : t.WellFormed check?)
    (hsigned : t.isSigned = false)
    (hsigns : ∀ b, t.signs b =
      Symbol.leftParen.sign b :: (inside ++ [Symbol.rightParen.sign false]))
    (hexpr : ∀ ks, Reads (parseExpr check? stop) (inside ++ Symbol.rightParen.sign false :: ks) t'
      (Symbol.rightParen.sign false :: ks)) :
    t.IsRead check? stop t' := by
  refine .of_base h hsigned fun b ks hks => ?_
  rw [hsigns, List.cons_append, List.append_assoc, List.singleton_append]
  exact base_of_primary (group_reads (hexpr ks)) hks

theorem binary_reads {op : BinaryOp} (hop : op ≠ .pow) {l l' r r' : Term}
    (hl : l.IsRead check? stop l') (hr : r.IsRead check? stop r') {ks : List Sign}
    (hks : Closed ks) :
    Reads (parseExpr check? stop) (l.signs false ++ op.symbol.sign true :: (r.signs true ++ ks))
      (.binary op l' r') ks := by
  have hstop : ∀ s ∈ ks.head?, binaryOp? s.1 = none :=
    hks.of_kind (p := fun k => binaryOp? k = none) (by decide)
  have hright : Reads (parseBinary check? stop (op.precedence + 1)) (r.signs true ++ ks) r' ks :=
    parseBinary_reads (hr.operand true hks.detached hks.noPower) (climb_reads_stop hstop)
  have hleft := hl.operand false (detached_op op (r.signs true ++ ks)) (noPower_op hop _)
  exact parseExpr_reads
    (parseBinary_reads hleft
      (climb_reads_op (binaryOp?_symbol hop) (one_le_precedence op) hright
        (climb_reads_stop hstop)))
    (hks.of_kind (p := fun k => k ≠ .symbol .question) (by decide))

theorem power_reads {l l' r r' : Term} (hl : l.WellFormed check?) (hsigned : l.isSigned = false)
    (hleft : l.IsRead check? stop l') (hright : r.IsRead check? stop r') {ks : List Sign}
    (hks : Closed ks) :
    Reads (parseExpr check? stop)
      (l.signs false ++ Symbol.starStar.sign true :: (r.signs true ++ ks))
      (.binary .pow l' r') ks :=
  expr_of_operand
    (operand_of_power hl hsigned
      (parsePower_reads_pow (hleft.base hsigned false (detached_op .pow _))
        (hright.operand true hks.detached hks.noPower))) hks

theorem signedPower_reads {l l' r r' : Term} (hleft : l.IsRead check? stop l')
    (hright : r.IsRead check? stop r') {ks : List Sign} (hks : Closed ks) :
    Reads (parseExpr check? stop)
      (Symbol.leftParen.sign false :: (l.signs false ++ Symbol.rightParen.sign false ::
        Symbol.starStar.sign true :: (r.signs true ++ ks))) (.binary .pow l' r') ks := by
  have hgroup := group_reads (b := false) (hleft.expr false (.cons (s := .rightParen)
    (by decide) false (Symbol.starStar.sign true :: (r.signs true ++ ks))))
  refine expr_of_operand (parseUnary_reads (parsePower_reads_pow
    (base_of_primary hgroup (detached_op .pow _))
    (hright.operand true hks.detached hks.noPower)) ?_) hks
  rintro _ ⟨⟩
  simp [Symbol.sign]

theorem Term.IsRead.binary {op : BinaryOp} {l l' r r' : Term}
    (h : (Term.binary op l r).WellFormed check?) (hl : l.IsRead check? stop l')
    (hr : r.IsRead check? stop r') :
    (Term.binary op l r).IsRead check? stop (.binary op l' r') := by
  have hclosed (ks : List Sign) : Closed (Symbol.rightParen.sign false :: ks) :=
    .cons (by decide) false ks
  have hwf : l.WellFormed check? := by
    simp only [Term.WellFormed] at h
    exact h.1
  by_cases hop : op = .pow
  · subst hop
    cases hsigned : l.isSigned with
    | true =>
      refine .of_group (Symbol.leftParen.sign false :: (l.signs false ++
        Symbol.rightParen.sign false :: Symbol.starStar.sign true :: r.signs true)) h rfl
        (fun b => ?_) fun ks => ?_
      · simp [Term.signs, hsigned, BinaryOp.symbol]
      · have hread := signedPower_reads hl hr (hclosed ks)
        simpa using hread
    | false =>
      refine .of_group (l.signs false ++ Symbol.starStar.sign true :: r.signs true) h rfl
        (fun b => ?_) fun ks => ?_
      · simp [Term.signs, hsigned, BinaryOp.symbol]
      · have hread := power_reads hwf hsigned hl hr (hclosed ks)
        simpa using hread
  · refine .of_group (l.signs false ++ op.symbol.sign true :: r.signs true) h rfl
      (fun b => ?_) fun ks => ?_
    · simp [Term.signs, hop]
    · have hread := binary_reads hop hl hr (hclosed ks)
      simpa using hread

theorem ternary_reads {a a' b b' c c' : Term} (ha : a.IsRead check? stop a')
    (hb : b.IsRead check? stop b') (hc : c.IsRead check? stop c') {ks : List Sign}
    (hks : Closed ks) :
    Reads (parseExpr check? stop)
      (a.signs false ++ Symbol.question.sign true ::
        (b.signs true ++ Symbol.colon.sign true :: (c.signs true ++ ks)))
      (.ternary a' b' c') ks := by
  refine parseExpr_reads_ternary
    (parseBinary_reads (ha.operand false ?_ ?_) (climb_reads_stop ?_))
    (hb.expr true (.cons (by decide) true _)) (hc.expr true hks)
  · rintro _ ⟨⟩ _
    rfl
  · rintro _ ⟨⟩
    simp [Symbol.sign]
  · rintro _ ⟨⟩
    rfl

theorem Term.IsRead.ternary {a a' b b' c c' : Term}
    (h : (Term.ternary a b c).WellFormed check?) (ha : a.IsRead check? stop a')
    (hb : b.IsRead check? stop b') (hc : c.IsRead check? stop c') :
    (Term.ternary a b c).IsRead check? stop (.ternary a' b' c') := by
  refine .of_group (a.signs false ++ Symbol.question.sign true ::
    (b.signs true ++ Symbol.colon.sign true :: c.signs true)) h rfl (fun _ => ?_) fun ks => ?_
  · simp [Term.signs]
  · have hread := ternary_reads ha hb hc (.cons (s := .rightParen) (by decide) false ks)
    simpa using hread

/-! ### Lists -/

def MoreAreRead (check? : Signatures) (stop : Nat) (ts ts' : List Term) : Prop :=
  ∀ ks, Closed ks → (∀ s ∈ ks.head?, s.1 ≠ .symbol .comma) →
    Reads (parseMore check? stop) (moreTermsSigns ts ++ ks) ts' ks

variable {ts ts' : List Term}

theorem closed_moreTermsSigns (ts : List Term) {ks : List Sign} (hks : Closed ks) :
    Closed (moreTermsSigns ts ++ ks) := by
  cases ts with
  | nil => exact hks
  | cons t ts => exact .cons (by decide) false _

theorem MoreAreRead.nil : MoreAreRead check? stop [] [] :=
  fun _ _ hcomma => parseMore_reads_nil hcomma

theorem MoreAreRead.cons (ht : t.IsRead check? stop t') (hts : MoreAreRead check? stop ts ts') :
    MoreAreRead check? stop (t :: ts) (t' :: ts') := by
  intro ks hks hcomma
  rw [moreTermsSigns, List.cons_append, List.append_assoc]
  exact parseMore_reads_comma (ht.expr true (closed_moreTermsSigns ts hks)) (hts ks hks hcomma)

theorem MoreAreRead.list (ht : t.IsRead check? stop t') (hts : MoreAreRead check? stop ts ts')
    {ks : List Sign} (hks : Closed ks) (hcomma : ∀ s ∈ ks.head?, s.1 ≠ .symbol .comma) :
    Reads (parseList check? stop) (termsSigns (t :: ts) ++ ks) (t' :: ts') ks := by
  rw [termsSigns, List.append_assoc]
  exact parseList_reads (ht.expr false (closed_moreTermsSigns ts hks)) (hts ks hks hcomma)

/-- The arguments of a call, with the parenthesis after them. -/
theorem MoreAreRead.call {name : String} (hname : check?.Allows name (t' :: ts'))
    (h : t.WellFormed check?) (ht : t.IsRead check? stop t')
    (hts : MoreAreRead check? stop ts ts') (offset : Nat) (ks : List Sign) :
    Reads (parseCall check? stop name offset)
      (termsSigns (t :: ts) ++ Symbol.rightParen.sign false :: ks) (name, t' :: ts') ks := by
  refine parseCall_reads hname ?_ (hts.list ht (.cons (by decide) false ks) ?_)
  · obtain ⟨k, tail, hsigns, hopens⟩ := t.exists_opens h false
    rw [termsSigns, hsigns]
    rintro _ ⟨⟩
    exact hopens.isOpen.1
  · rintro _ ⟨⟩
    simp [Symbol.sign]

theorem groupTerm_of_length (h : 2 ≤ ts.length) : groupTerm ts = .list ts := by
  unfold groupTerm
  split
  · simp at h
  · rfl

theorem Term.IsRead.list (h : (Term.list (t :: ts)).WellFormed check?)
    (hlength : ts'.length = ts.length) (ht : t.IsRead check? stop t')
    (hts : MoreAreRead check? stop ts ts') :
    (Term.list (t :: ts)).IsRead check? stop (.list (t' :: ts')) := by
  refine .of_base h rfl fun b ks hks => ?_
  have htwo : 2 ≤ (t' :: ts').length := by
    simp only [Term.WellFormed, List.length_cons] at h ⊢
    omega
  rw [← groupTerm_of_length htwo, Term.signs, List.cons_append, List.append_assoc,
    List.singleton_append]
  have hlist : Reads (parseList check? stop)
      (termsSigns (t :: ts) ++ Symbol.rightParen.sign false :: ks) (t' :: ts')
      (Symbol.rightParen.sign false :: ks) :=
    hts.list ht (.cons (by decide) false ks) (by rintro _ ⟨⟩; simp [Symbol.sign])
  exact base_of_primary (parsePrimary_reads_group hlist) hks

/-! ### Every term -/

theorem length_rereadTerms (ts : List Term) : (rereadTerms ts).length = ts.length := by
  induction ts with
  | nil => rfl
  | cons t ts ih => rw [rereadTerms, List.length_cons, ih, List.length_cons]

theorem extendPath_of_ne_nil (hss : ss ≠ []) : (extendPath t ss).isPath = true := by
  cases ss with
  | nil => exact absurd rfl hss
  | cons s ss => cases t <;> rfl

/-- What is read of a compound term is no literal. -/
theorem Term.reread_literal (h : t.WellFormed check?) {v : Scalar} (hv : t.reread = .literal v) :
    ∃ w, t = .literal w ∧ w.reread = .literal v := by
  cases t with
  | literal w => exact ⟨w, rfl, by simpa only [Term.reread] using hv⟩
  | path start ss =>
    simp only [Term.WellFormed] at h
    exfalso
    cases start with
    | root => simp [Term.reread] at hv
    | current => simp [Term.reread] at hv
    | term t =>
      cases ss with
      | nil => exact h.2.2 rfl rfl
      | cons s ss =>
        have hpath : (extendPath t.reread (rereadSegments (s :: ss))).isPath = true :=
          extendPath_of_ne_nil (by simp [rereadSegments])
        rw [Term.reread] at hv
        rw [hv] at hpath
        cases hpath
    | context =>
      cases ss with
      | nil => exact h.2.2 rfl rfl
      | cons s ss =>
        rw [Term.reread] at hv
        revert hv
        cases rereadSegments ss <;> cases s.reread <;> simp [extendPath, headTerm, contextPath]
  | _ => simp [Term.reread] at hv

theorem Scalar.kind_of_reread {v w : Scalar} (h : w.reread = .literal v) :
    (Term.literal v).isKey = (Term.literal w).isKey ∧
      (Term.literal v).isNumber = (Term.literal w).isNumber := by
  cases w with
  | real r =>
    simp only [Scalar.reread, realTerm] at h
    split at h
    · cases h
      exact ⟨rfl, rfl⟩
    · split at h
      · cases h
      · split at h <;> cases h
  | _ =>
    cases h
    exact ⟨rfl, rfl⟩

theorem Term.isKey_reread (h : t.WellFormed check?) (hkey : t.isKey = false) :
    t.reread.isKey = false := by
  cases hu : t.reread with
  | literal v =>
    obtain ⟨w, rfl, hw⟩ := t.reread_literal h hu
    rw [(Scalar.kind_of_reread hw).1, hkey]
  | _ => rfl

theorem Term.isNumber_reread (h : t.WellFormed check?) (hnumber : t.isNumber = false) :
    t.reread.isNumber = false := by
  cases hu : t.reread with
  | literal v =>
    obtain ⟨w, rfl, hw⟩ := t.reread_literal h hu
    rw [(Scalar.kind_of_reread hw).2, hnumber]
  | _ => rfl

end

section

variable {check? : Signatures} {stop : Nat}
mutual

/-- The lexemes of every term are read as `Term.reread` says. -/
theorem Term.isRead (hcounts : check?.CountsOnly) (t : Term) (h : t.WellFormed check?) :
    t.IsRead check? stop t.reread := by
  have hterm := h
  match t with
  | .literal v =>
    simp only [Term.WellFormed] at h
    exact v.isRead h
  | .path .root ss =>
    simp only [Term.WellFormed] at h
    exact .path (.symbol .dollar) hterm rfl (fun _ => rfl) rfl (segmentsAreRead hcounts ss h.2.1)
  | .path .current ss =>
    simp only [Term.WellFormed] at h
    exact .path (.symbol .atSign) hterm rfl (fun _ => rfl) rfl (segmentsAreRead hcounts ss h.2.1)
  | .path (.term t) ss =>
    simp only [Term.WellFormed, Start.WellFormed] at h
    exact .term hterm (t.isRead hcounts h.1.1) (segmentsAreRead hcounts ss h.2.1)
  | .path .context [] =>
    simp only [Term.WellFormed] at h
    exact absurd rfl (h.2.2 rfl)
  | .path .context (s :: ss) =>
    simp only [Term.WellFormed, segmentsWellFormed] at h
    exact .context hterm (s.isRead hcounts h.2.1.1) (segmentsAreRead hcounts ss h.2.1.2)
  | .call name args =>
    simp only [Term.WellFormed] at h
    exact .call hterm (callIsRead hcounts args h.1 h.2)
  | .unary op t =>
    simp only [Term.WellFormed] at h
    exact .unary (fun hop => t.isNumber_reread h.1 (h.2 hop)) (t.isRead hcounts h.1)
  | .binary op l r =>
    simp only [Term.WellFormed] at h
    exact .binary hterm (l.isRead hcounts h.1) (r.isRead hcounts h.2)
  | .ternary a b c =>
    simp only [Term.WellFormed] at h
    exact .ternary hterm (a.isRead hcounts h.1) (b.isRead hcounts h.2.1) (c.isRead hcounts h.2.2)
  | .list [] =>
    simp only [Term.WellFormed, List.length_nil] at h
    omega
  | .list (t :: ts) =>
    simp only [Term.WellFormed, termsWellFormed] at h
    exact .list hterm (length_rereadTerms ts) (t.isRead hcounts h.2.1) (moreAreRead hcounts ts h.2.2)

theorem Segment.isRead (hcounts : check?.CountsOnly) (s : Segment) (h : s.WellFormed check?) :
    s.IsRead check? stop s.reread := by
  match s with
  | .child name => exact Segment.IsRead.child name
  | .index i =>
    simp only [Segment.WellFormed] at h
    exact Segment.IsRead.index h
  | .anyIndex => exact Segment.IsRead.anyIndex
  | .wildcard => exact Segment.IsRead.wildcard
  | .recursive inner =>
    simp only [Segment.WellFormed] at h
    exact Segment.IsRead.recursive (inner.isRead hcounts h.1) h.2
  | .recursiveWildcard => exact Segment.IsRead.recursiveWildcard
  | .slice first last step => exact Segment.IsRead.slice h
  | .filter t =>
    simp only [Segment.WellFormed] at h
    exact Segment.IsRead.filter (t.isRead hcounts h)
  | .predicate t =>
    simp only [Segment.WellFormed] at h
    exact Segment.IsRead.predicate h.1 h.2 (t.isKey_reread h.1 h.2) (t.isRead hcounts h.1)
  | .call name args =>
    simp only [Segment.WellFormed] at h
    exact Segment.IsRead.call (callIsRead hcounts args h.1 h.2)

theorem segmentsAreRead (hcounts : check?.CountsOnly) (ss : List Segment)
    (h : segmentsWellFormed check? ss) :
    SegmentsAreRead check? stop ss (rereadSegments ss) := by
  match ss with
  | [] =>
    rw [rereadSegments]
    exact .nil
  | s :: ss =>
    simp only [segmentsWellFormed] at h
    rw [rereadSegments]
    exact .cons (s.isRead hcounts h.1) (segmentsAreRead hcounts ss h.2)

theorem moreAreRead (hcounts : check?.CountsOnly) (ts : List Term)
    (h : termsWellFormed check? ts) :
    MoreAreRead check? stop ts (rereadTerms ts) := by
  match ts with
  | [] =>
    rw [rereadTerms]
    exact .nil
  | t :: ts =>
    simp only [termsWellFormed] at h
    rw [rereadTerms]
    exact .cons (t.isRead hcounts h.1) (moreAreRead hcounts ts h.2)

theorem callIsRead (hcounts : check?.CountsOnly) (args : List Term) {name : String}
    (hname : check?.Allows name args) (h : termsWellFormed check? args) (offset : Nat)
    (ks : List Sign) :
    Reads (parseCall check? stop name offset)
      (termsSigns args ++ Symbol.rightParen.sign false :: ks) (name, rereadTerms args) ks := by
  match args with
  | [] => exact parseCall_reads_nil hname
  | t :: ts =>
    simp only [termsWellFormed] at h
    have hlength := length_rereadTerms (t :: ts)
    rw [rereadTerms] at hlength
    exact MoreAreRead.call (hcounts name _ _ hlength hname) h.1 (t.isRead hcounts h.1)
      (moreAreRead hcounts ts h.2) offset ks

end

/-! ### Whole texts -/

theorem parseAll_reads {ls : List Lexeme} {ks : List Sign} {ts : List Term}
    (hls : ls.map Lexeme.sign = ks) (h : Reads (parseList check? stop) ks ts []) :
    parseAll check? stop ls = .ok ts := by
  obtain ⟨rest, hlen, hr, hrest⟩ := h ls hls
  have hnil : rest = [] := List.map_eq_nil_iff.mp hrest
  have hne : ls.isEmpty = false := by
    cases ls with
    | nil => exact absurd hlen (Nat.not_lt_zero _)
    | cons l ls => rfl
  subst hnil
  rw [parseAll, hne, hr]
  rfl

/-- A text is read as what the rule for lists reads of the lexemes it is scanned into. -/
theorem parse_reads {source : String} {ks : List Sign} {ts : List Term}
    (hscans : Lexer.Scans false source.toList ks)
    (h : ∀ stop, Reads (parseList check? stop) ks ts []) : parse check? source = .ok ts := by
  obtain ⟨tokens, htokens, hsigns⟩ := hscans.tokens 0
  simp only [parse, tokenize, htokens, Except.mapError, bind, Except.bind,
    parseAll_reads hsigns (h _)]

/-- The canonical text of terms is accepted, and read as `Term.reread` says. -/
theorem parse_canonicalText (hspelled : check?.Spelled) (hcounts : check?.CountsOnly)
    {ts : List Term} (hne : ts ≠ []) (h : termsWellFormed check? ts) :
    parse check? (canonicalText ts) = .ok (rereadTerms ts) := by
  obtain ⟨t, ts, rfl⟩ := List.exists_cons_of_ne_nil hne
  have hscans : Lexer.Scans false (termsChars (t :: ts) ++ []) (termsSigns (t :: ts) ++ []) :=
    termsScans hspelled (t :: ts) h (by rintro _ ⟨⟩) .nil
  rw [List.append_nil, ← String.toList_ofList (l := termsChars (t :: ts))] at hscans
  simp only [termsWellFormed] at h
  exact parse_reads hscans fun stop =>
    (moreAreRead hcounts ts h.2).list (t.isRead hcounts h.1) .nil (by rintro _ ⟨⟩)

end

end PathQuery
