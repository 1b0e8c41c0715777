import PathQuery.Proofs.Expression.Rules
import PathQuery.Proofs.Number.Doubles

/-!
# What the parser returns

Every term that the parser returns is well formed. The proof goes by induction on the number of
lexemes, rule by rule; what it needs of the scanner is that integers have no sign and no real is
NaN.
-/

namespace PathQuery

/-- A token as the scanner makes them: an integer has no sign, and a real is not NaN. -/
def TokenKind.Scanned : TokenKind → Prop
  | .integer i => 0 ≤ i.toInt
  | .real r => r.isNaN = false
  | _ => True

theorem ok_of_bind {ε α β : Type} {x : Except ε α} {f : α → Except ε β} {b : β}
    (h : x >>= f = .ok b) : ∃ a, x = .ok a ∧ f a = .ok b := by
  cases x with
  | error e => cases h
  | ok a => exact ⟨a, rfl, h⟩

namespace Lexer

theorem numeralReal_isNaN (cs : List Char) : (numeralReal cs).isNaN = false := by
  unfold numeralReal
  cases Decimal.read? cs with
  | none => decide +kernel
  | some d => exact Decimal.toFloat_isNaN d

theorem number_scanned {c : Char} (hc : c.isDigit = true) (cs : List Char) :
    (number (c :: cs)).1.Scanned := by
  have hwhole : ((c :: cs).takeWhile Char.isDigit).length =
      (cs.takeWhile Char.isDigit).length + 1 := by
    rw [List.takeWhile_cons_of_pos hc, List.length_cons]
  unfold number
  simp only [hwhole]
  split
  · -- a whole numeral begins with a digit, so no sign is read
    generalize fractionLength _ = fraction
    generalize exponentLength _ = exponent
    have htext : (c :: cs).take ((cs.takeWhile Char.isDigit).length + 1 + fraction + exponent) =
        c :: cs.take ((cs.takeWhile Char.isDigit).length + fraction + exponent) := by
      rw [Nat.add_right_comm _ 1, Nat.add_right_comm _ 1, List.take_succ_cons]
    rw [htext]
    cases hread : readInt64? (c :: cs.take _) with
    | none => exact numeralReal_isNaN _
    | some i => exact toInt_of_readInt64? hc hread
  · exact numeralReal_isNaN _

theorem scan_scanned {offset extra : Nat} {c : Char} {cs : List Char} {kind : TokenKind}
    (h : scan offset c cs = .ok (kind, extra)) : kind.Scanned := by
  unfold scan at h
  split at h
  · cases h
    trivial
  split at h
  · obtain ⟨⟨text, count⟩, _, h⟩ := ok_of_bind h
    cases h
    trivial
  split at h
  · next hdigit =>
    cases h
    exact number_scanned hdigit cs
  split at h
  · obtain ⟨⟨name, count⟩, _, h⟩ := ok_of_bind h
    simp only at h
    split at h <;> cases h <;> trivial
  · split at h
    · cases h
      trivial
    · cases h

theorem tokensFrom_scanned {offset : Nat} {cs : List Char} {ts : List Token}
    (h : tokensFrom offset cs = .ok ts) : ∀ t ∈ ts, t.kind.Scanned := by
  induction hn : cs.length using Nat.strongRecOn generalizing cs offset ts with
  | ind n ih =>
    cases cs with
    | nil =>
      rw [tokensFrom] at h
      cases h
      exact fun t ht => by cases ht
    | cons c cs =>
      rw [tokensFrom] at h
      obtain ⟨⟨kind, extra⟩, hscan, h⟩ := ok_of_bind h
      obtain ⟨rest, hrest, h⟩ := ok_of_bind h
      cases h
      intro t ht
      rcases List.mem_cons.mp ht with rfl | ht
      · exact scan_scanned hscan
      · refine ih (cs.drop extra).length ?_ hrest rfl t ht
        simp only [List.length_cons, List.length_drop] at hn ⊢
        omega

end Lexer

def Scanned (ls : List Lexeme) : Prop := ∀ l ∈ ls, l.kind.Scanned

theorem scanned_ofTokens {ts : List Token} (h : ∀ t ∈ ts, t.kind.Scanned) (spaced : Bool) :
    Scanned (Lexeme.ofTokens spaced ts) := by
  induction ts generalizing spaced with
  | nil => exact fun l hl => by cases hl
  | cons t ts ih =>
    have hts (b : Bool) := ih (fun t ht => h t (List.mem_cons_of_mem _ ht)) b
    rw [Lexeme.ofTokens]
    split
    · exact hts true
    · intro l hl
      rcases List.mem_cons.mp hl with rfl | hl
      · exact h t List.mem_cons_self
      · exact hts false l hl

theorem Scanned.of_cons {l : Lexeme} {ls : List Lexeme} (h : Scanned (l :: ls)) : Scanned ls :=
  fun l' hl' => h l' (List.mem_cons_of_mem l hl')

namespace Parser

/-! ### Pieces without recursion -/

section

variable {check? : Signatures} {stop : Nat}

theorem expect_scanned {s : Symbol} {ls : List Lexeme} {r : Rest ls} (hls : Scanned ls)
    (h : expect stop s ls = .ok r) : Scanned r.1 := by
  cases ls with
  | nil => cases h
  | cons l ls =>
    rw [expect] at h
    split at h
    · cases h
      exact hls.of_cons
    · cases h

theorem toInt_ne_minValue {i : Int64} (h : 0 ≤ i.toInt) : i ≠ Int64.minValue := by
  rintro rfl
  revert h
  decide

theorem ne_minValue_of_neg {i n : Int64} (h : fitInt64? (-i.toInt) = some n) :
    n ≠ Int64.minValue := by
  have hn := fitInt64?_eq_some_iff.mp h
  have hlt := i.toInt_lt
  have hvalue : Int64.minValue.toInt = -0x8000000000000000 := by decide
  rintro rfl
  omega

theorem signedInteger_scanned {ls : List Lexeme} (hls : Scanned ls) :
    boundWellFormed (signedInteger ls).1 ∧ Scanned (signedInteger ls).2.1 := by
  unfold signedInteger
  split
  · exact ⟨toInt_ne_minValue (hls _ List.mem_cons_self), hls.of_cons⟩
  · next i _ _ rest =>
    cases hfit : fitInt64? (-i.toInt) with
    | none => exact ⟨trivial, hls⟩
    | some n => exact ⟨ne_minValue_of_neg hfit, hls.of_cons.of_cons⟩
  · exact ⟨trivial, hls⟩

theorem colon?_scanned {ls : List Lexeme} {r : Rest ls} (hls : Scanned ls)
    (h : colon? ls = some r) : Scanned r.1 := by
  unfold colon? at h
  split at h
  · cases h
    exact hls.of_cons
  · cases h

theorem slice?_wellFormed (check? : Signatures) {ls : List Lexeme} {s : Segment} {r : Rest ls}
    (hls : Scanned ls) (h : slice? stop ls = .ok (some (s, r))) :
    s.WellFormed check? ∧ s.isSelector = true ∧ Scanned r.1 := by
  have hfirst := signedInteger_scanned hls
  unfold slice? at h
  simp only at h
  split at h
  · cases h
  · next r₂ hlen₂ hcolon =>
    have hlast := signedInteger_scanned (colon?_scanned hfirst.2 hcolon)
    cases hmark : colon? (signedInteger r₂).2.1 with
    | none =>
      simp only [hmark] at h
      split at h
      · next hzero => cases hzero
      split at h
      · cases h
        simp only [Segment.WellFormed, boundWellFormed]
        exact ⟨⟨hfirst.1, hlast.1, trivial, by simp⟩, rfl, hlast.2⟩
      · cases h
    | some afterMark =>
      have hstep := signedInteger_scanned (colon?_scanned hlast.2 hmark)
      simp only [hmark] at h
      split at h
      · cases h
      next hzero =>
      split at h
      · cases h
        simp only [Segment.WellFormed]
        exact ⟨⟨hfirst.1, hlast.1, hstep.1, hzero⟩, rfl, hstep.2⟩
      · cases h

theorem applyUnary_wellFormed (op : UnaryOp) {t : Term} (h : t.WellFormed check?) :
    (applyUnary op t).WellFormed check? := by
  unfold applyUnary
  split
  · next i =>
    simp only [Term.WellFormed, Scalar.WellFormed] at h
    split
    · next n hfit =>
      simp only [Term.WellFormed, Scalar.WellFormed]
      exact ne_minValue_of_neg hfit
    · -- the negation of an integer that is not the least one fits
      next hfit =>
      have hle := i.le_toInt
      have hlt := i.toInt_lt
      have hmin : i.toInt ≠ Int64.minValue.toInt := fun hi => h (Int64.toInt_inj.mp hi)
      have hvalue : Int64.minValue.toInt = -0x8000000000000000 := by decide
      rw [fitInt64?, if_pos (by omega)] at hfit
      cases hfit
  · next r =>
    simp only [Term.WellFormed, Scalar.WellFormed] at h ⊢
    exact Binary64.neg_isNaN h
  · next hint hreal =>
    simp only [Term.WellFormed]
    refine ⟨h, fun hop => ?_⟩
    subst hop
    cases t with
    | literal v =>
      cases v with
      | int i => exact absurd rfl (hint i rfl)
      | real r => exact absurd rfl (hreal r rfl)
      | _ => rfl
    | _ => rfl

theorem segmentsWellFormed_append {ss more : List Segment} (hss : segmentsWellFormed check? ss)
    (hmore : segmentsWellFormed check? more) : segmentsWellFormed check? (ss ++ more) := by
  induction ss with
  | nil => exact hmore
  | cons s ss ih =>
    simp only [segmentsWellFormed] at hss
    simp only [List.cons_append, segmentsWellFormed]
    exact ⟨hss.1, ih hss.2⟩

theorem extendPath_wellFormed {t : Term} {ss : List Segment} (ht : t.WellFormed check?)
    (hss : segmentsWellFormed check? ss) : (extendPath t ss).WellFormed check? := by
  cases ss with
  | nil => exact ht
  | cons s ss =>
    cases t with
    | path start segments =>
      simp only [Term.WellFormed] at ht
      simp only [extendPath, Term.WellFormed]
      exact ⟨ht.1, segmentsWellFormed_append ht.2.1 hss, fun _ => by simp⟩
    | _ =>
      simp only [extendPath]
      rw [Term.WellFormed, Start.WellFormed]
      exact ⟨⟨ht, rfl⟩, hss, fun _ => by simp⟩

theorem contextPath_wellFormed {s : Segment} (hs : s.WellFormed check?) :
    (contextPath [s]).WellFormed check? := by
  simp only [contextPath, Term.WellFormed, Start.WellFormed, segmentsWellFormed]
  exact ⟨trivial, ⟨hs, trivial⟩, fun _ => by simp⟩

theorem nameTerm_wellFormed (name : String) : (nameTerm name).WellFormed check? := by
  unfold nameTerm
  split
  · simp only [Term.WellFormed, Scalar.WellFormed]
  split
  · simp only [Term.WellFormed, Scalar.WellFormed]
  split
  · simp only [Term.WellFormed, Scalar.WellFormed]
  · exact contextPath_wellFormed (by simp only [Segment.WellFormed])

theorem atom?_wellFormed {k : TokenKind} {t : Term} (hk : k.Scanned) (h : atom? k = some t) :
    t.WellFormed check? := by
  cases k with
  | string s =>
    cases h
    simp only [Term.WellFormed, Scalar.WellFormed]
  | integer i =>
    cases h
    simp only [Term.WellFormed, Scalar.WellFormed]
    exact toInt_ne_minValue hk
  | real r =>
    cases h
    simp only [Term.WellFormed, Scalar.WellFormed]
    exact hk
  | name n =>
    cases h
    exact nameTerm_wellFormed _
  | symbol s =>
    cases s with
    | dollar =>
      cases h
      simp [Term.WellFormed, Start.WellFormed, segmentsWellFormed, Start.isBare]
    | atSign =>
      cases h
      simp [Term.WellFormed, Start.WellFormed, segmentsWellFormed, Start.isBare]
    | star =>
      cases h
      exact contextPath_wellFormed (by simp only [Segment.WellFormed])
    | _ => cases h
  | whitespace => cases h
  | function n => cases h

theorem groupTerm_wellFormed {ts : List Term} (hne : ts ≠ []) (h : termsWellFormed check? ts) :
    (groupTerm ts).WellFormed check? := by
  match ts with
  | [] => exact absurd rfl hne
  | [t] =>
    simp only [termsWellFormed] at h
    exact h.1
  | t :: t' :: ts =>
    simp only [groupTerm, Term.WellFormed]
    exact ⟨by simp, h⟩

theorem bracketSegment_wellFormed {t : Term} (h : t.WellFormed check?) :
    (bracketSegment t).WellFormed check? ∧ (bracketSegment t).isSelector = true := by
  unfold bracketSegment
  split
  · simp only [Term.WellFormed, Scalar.WellFormed] at h
    simp only [Segment.WellFormed]
    exact ⟨h, rfl⟩
  · simp only [Segment.WellFormed]
    exact ⟨trivial, rfl⟩
  · next hint hstring =>
    simp only [Segment.WellFormed]
    refine ⟨⟨h, ?_⟩, rfl⟩
    cases t with
    | literal v =>
      cases v with
      | int i => exact absurd rfl (hint i)
      | str s => exact absurd rfl (hstring s)
      | _ => rfl
    | _ => rfl

theorem checkCall_wellFormed {name : String} {offset : Nat} {args : List Term}
    {call : String × List Term} (hargs : termsWellFormed check? args)
    (h : checkCall check? name offset args = .ok call) :
    check?.Allows call.1 call.2 ∧ termsWellFormed check? call.2 := by
  unfold checkCall at h
  split at h
  · cases h
  · next verify hverify =>
    split at h
    · cases h
    · next hnone =>
      cases h
      exact ⟨⟨verify, hverify, hnone⟩, hargs⟩

end

/-! ### The grammar -/

/-- From these lexemes, the rule `f` returns only what satisfies `q`. -/
def Yields {α : Type} {P : List Lexeme → List Lexeme → Prop} (f : Rule α P) (q : α → Prop)
    (ls : List Lexeme) : Prop :=
  Scanned ls → ∀ {a r}, f ls = .ok (a, r) → q a ∧ Scanned r.1

section

variable (check? : Signatures) (stop : Nat)

/-- The arguments of a call that is allowed. -/
def CallWellFormed (call : String × List Term) : Prop :=
  check?.Allows call.1 call.2 ∧ termsWellFormed check? call.2

/-- A segment that can follow two points. -/
def SelectorWellFormed (s : Segment) : Prop := s.WellFormed check? ∧ s.isSelector = true

/-- What each rule of the grammar returns from the lexemes `ls`. -/
structure Produces (ls : List Lexeme) : Prop where
  list : Yields (parseList check? stop) (fun ts => ts ≠ [] ∧ termsWellFormed check? ts) ls
  more : Yields (parseMore check? stop) (termsWellFormed check?) ls
  expr : Yields (parseExpr check? stop) (Term.WellFormed check?) ls
  binary : ∀ least, Yields (parseBinary check? stop least) (Term.WellFormed check?) ls
  climb : ∀ least lhs, lhs.WellFormed check? →
    Yields (climb check? stop least lhs) (Term.WellFormed check?) ls
  unary : Yields (parseUnary check? stop) (Term.WellFormed check?) ls
  segments : Yields (parseSegments check? stop) (segmentsWellFormed check?) ls
  call : ∀ name offset, Yields (parseCall check? stop name offset) (CallWellFormed check?) ls
  dotted : Yields (parseDotted check? stop)
    (fun s => s.WellFormed check? ∧
      (s.isSelector = true ∨ ls.head?.map Lexeme.kind = some (.symbol .star))) ls
  bracket : Yields (parseBracket check? stop) (SelectorWellFormed check?) ls

end

section

variable {check? : Signatures} {stop : Nat} {ls : List Lexeme}

variable (ih : ∀ rest, rest.length < ls.length → Produces check? stop rest)
include ih

theorem parseMore_yields : Yields (parseMore check? stop) (termsWellFormed check?) ls := by
  intro hls ts r h
  unfold parseMore at h
  split at h
  · next o s ls' =>
    obtain ⟨⟨t, rest, hlen⟩, ht, h⟩ := ok_of_bind h
    obtain ⟨⟨ts', rest'⟩, hts, h⟩ := ok_of_bind h
    cases h
    have ht := (ih ls' (Nat.lt_succ_self _)).expr hls.of_cons ht
    have hts := (ih rest (Nat.lt_succ_of_lt hlen)).more ht.2 hts
    simp only [termsWellFormed]
    exact ⟨⟨ht.1, hts.1⟩, hts.2⟩
  · cases h
    simp only [termsWellFormed]
    exact ⟨trivial, hls⟩

theorem climb_yields (least : Nat) (lhs : Term) (hlhs : lhs.WellFormed check?) :
    Yields (climb check? stop least lhs) (Term.WellFormed check?) ls := by
  intro hls t r h
  cases ls with
  | nil =>
    rw [climb] at h
    cases h
    exact ⟨hlhs, hls⟩
  | cons l ls' =>
    rw [climb] at h
    split at h
    · cases h
      exact ⟨hlhs, hls⟩
    · next op hop =>
      split at h
      · cases h
        exact ⟨hlhs, hls⟩
      · obtain ⟨⟨rhs, rest, hlen⟩, hr, h⟩ := ok_of_bind h
        obtain ⟨⟨t', rest'⟩, ht, h⟩ := ok_of_bind h
        cases h
        have hr := (ih ls' (Nat.lt_succ_self _)).binary _ hls.of_cons hr
        have hlhs' : (Term.binary op lhs rhs).WellFormed check? := by
          simp only [Term.WellFormed]
          exact ⟨hlhs, hr.1⟩
        exact (ih rest (Nat.lt_succ_of_lt hlen)).climb _ _ hlhs' hr.2 ht

theorem parseDotted_yields :
    Yields (parseDotted check? stop) (fun s => s.WellFormed check? ∧
      (s.isSelector = true ∨ ls.head?.map Lexeme.kind = some (.symbol .star))) ls := by
  intro hls s r h
  unfold parseDotted at h
  split at h
  · cases h
    simp only [Segment.WellFormed]
    exact ⟨⟨trivial, .inl rfl⟩, hls.of_cons⟩
  · cases h
    simp only [Segment.WellFormed]
    exact ⟨⟨trivial, .inl rfl⟩, hls.of_cons⟩
  · cases h
    simp only [Segment.WellFormed]
    exact ⟨⟨trivial, .inr rfl⟩, hls.of_cons⟩
  · cases h
    simp only [Segment.WellFormed]
    exact ⟨⟨toInt_ne_minValue (hls _ List.mem_cons_self), .inl rfl⟩, hls.of_cons⟩
  · next name offset spaced ls' =>
    obtain ⟨⟨⟨name', args⟩, rest⟩, hcall, h⟩ := ok_of_bind h
    cases h
    have hcall := (ih ls' (Nat.lt_succ_self _)).call _ _ hls.of_cons hcall
    simp only [Segment.WellFormed]
    exact ⟨⟨hcall.1, .inl rfl⟩, hcall.2⟩
  · cases h

theorem parseSegment_yields (hls : Scanned ls) {s : Segment} {r : Rest ls}
    (h : parseSegment check? stop ls = .ok (some (s, r))) :
    s.WellFormed check? ∧ Scanned r.1 := by
  have hrecursive {s : Segment} (hs : s.WellFormed check?) (hselector : s.isSelector = true) :
      (Segment.recursive s).WellFormed check? := by
    simp only [Segment.WellFormed]
    exact ⟨hs, hselector⟩
  unfold parseSegment at h
  split at h
  · next o b ls' =>
    obtain ⟨⟨s', rest⟩, hs, h⟩ := ok_of_bind h
    cases h
    have hs := (ih ls' (Nat.lt_succ_self _)).dotted hls.of_cons hs
    exact ⟨hs.1.1, hs.2⟩
  · next o b ls' =>
    split at h
    · cases h
      simp only [Segment.WellFormed]
      exact ⟨trivial, hls.of_cons.of_cons⟩
    · next o' b' ls'' =>
      obtain ⟨⟨s', rest⟩, hs, h⟩ := ok_of_bind h
      cases h
      have hs := (ih ls'' (Nat.lt_succ_of_lt (Nat.lt_succ_self _))).bracket hls.of_cons.of_cons hs
      exact ⟨hrecursive hs.1.1 hs.1.2, hs.2⟩
    · next hstar _ =>
      obtain ⟨⟨s', rest⟩, hs, h⟩ := ok_of_bind h
      cases h
      have hs := (ih ls' (Nat.lt_succ_self _)).dotted hls.of_cons hs
      rcases hs.1.2 with hselector | hhead
      · exact ⟨hrecursive hs.1.1 hselector, hs.2⟩
      · -- two points before a star are read as every descendant
        exfalso
        cases ls' with
        | nil => cases hhead
        | cons l ls' =>
          obtain ⟨kind, o', b'⟩ := l
          cases hhead
          exact hstar _ _ _ rfl
  · cases h
    simp only [Segment.WellFormed]
    exact ⟨trivial, hls.of_cons⟩
  · next o b ls' =>
    obtain ⟨⟨s', rest⟩, hs, h⟩ := ok_of_bind h
    cases h
    have hs := (ih ls' (Nat.lt_succ_self _)).bracket hls.of_cons hs
    exact ⟨hs.1.1, hs.2⟩
  · cases h

theorem parseSegments_yields :
    Yields (parseSegments check? stop) (segmentsWellFormed check?) ls := by
  intro hls ss r h
  have hnil : segmentsWellFormed check? [] := by
    simp only [segmentsWellFormed]
  cases ls with
  | nil =>
    rw [parseSegments] at h
    cases h
    exact ⟨hnil, hls⟩
  | cons l ls' =>
    rw [parseSegments] at h
    split at h
    · cases h
      exact ⟨hnil, hls⟩
    · obtain ⟨found, hfound, h⟩ := ok_of_bind h
      cases found with
      | none =>
        cases h
        exact ⟨hnil, hls⟩
      | some found =>
        obtain ⟨s, rest, hlen⟩ := found
        obtain ⟨⟨ss', rest'⟩, hss, h⟩ := ok_of_bind h
        cases h
        have hs := parseSegment_yields ih hls hfound
        have hss := (ih rest hlen).segments hs.2 hss
        simp only [segmentsWellFormed]
        exact ⟨⟨hs.1, hss.1⟩, hss.2⟩

theorem parsePrimary_yields : Yields (parsePrimary check? stop) (Term.WellFormed check?) ls := by
  intro hls t r h
  unfold parsePrimary at h
  split at h
  · cases h
  · next name offset spaced ls' =>
    obtain ⟨⟨⟨name', args⟩, rest⟩, hcall, h⟩ := ok_of_bind h
    cases h
    have hcall := (ih ls' (Nat.lt_succ_self _)).call _ _ hls.of_cons hcall
    simp only [Term.WellFormed]
    exact hcall
  · next o b ls' =>
    obtain ⟨⟨ts, rest, hlen⟩, hts, h⟩ := ok_of_bind h
    obtain ⟨⟨rest', hlen'⟩, hparen, h⟩ := ok_of_bind h
    cases h
    have hts := (ih ls' (Nat.lt_succ_self _)).list hls.of_cons hts
    have hrest := expect_scanned hts.2 hparen
    exact ⟨groupTerm_wellFormed hts.1.1 hts.1.2, hrest⟩
  · next l ls' _ _ =>
    split at h
    · next t' ht =>
      cases h
      exact ⟨atom?_wellFormed (hls l List.mem_cons_self) ht, hls.of_cons⟩
    · obtain ⟨found, hfound, h⟩ := ok_of_bind h
      cases found with
      | none => cases h
      | some found =>
        obtain ⟨s, rest⟩ := found
        cases h
        have hs := parseSegment_yields ih hls hfound
        exact ⟨contextPath_wellFormed hs.1, hs.2⟩

theorem parsePostfix_yields : Yields (parsePostfix check? stop) (Term.WellFormed check?) ls := by
  intro hls t r h
  rw [parsePostfix] at h
  obtain ⟨⟨t', rest, hlen⟩, ht, h⟩ := ok_of_bind h
  obtain ⟨⟨ss, rest'⟩, hss, h⟩ := ok_of_bind h
  cases h
  have ht := parsePrimary_yields ih hls ht
  have hss := (ih rest hlen).segments ht.2 hss
  exact ⟨extendPath_wellFormed ht.1 hss.1, hss.2⟩

theorem parsePower_yields : Yields (parsePower check? stop) (Term.WellFormed check?) ls := by
  intro hls t r h
  rw [parsePower] at h
  obtain ⟨⟨base, rest, hlen⟩, hbase, h⟩ := ok_of_bind h
  have hbase := parsePostfix_yields ih hls hbase
  simp only at h
  split at h
  · next o b ls' hlen _ =>
    obtain ⟨⟨exponent, rest'⟩, hexponent, h⟩ := ok_of_bind h
    cases h
    have hexponent := (ih ls' (Nat.lt_of_succ_lt hlen)).unary hbase.2.of_cons hexponent
    simp only [Term.WellFormed]
    exact ⟨⟨hbase.1, hexponent.1⟩, hexponent.2⟩
  · cases h
    exact hbase

theorem parseUnary_yields : Yields (parseUnary check? stop) (Term.WellFormed check?) ls := by
  intro hls t r h
  unfold parseUnary at h
  split at h
  · next o b ls' =>
    obtain ⟨⟨t', rest⟩, ht, h⟩ := ok_of_bind h
    cases h
    have ht := (ih ls' (Nat.lt_succ_self _)).unary hls.of_cons ht
    exact ⟨applyUnary_wellFormed .not ht.1, ht.2⟩
  · next o b ls' =>
    obtain ⟨⟨t', rest⟩, ht, h⟩ := ok_of_bind h
    cases h
    have ht := (ih ls' (Nat.lt_succ_self _)).unary hls.of_cons ht
    exact ⟨applyUnary_wellFormed .neg ht.1, ht.2⟩
  · exact parsePower_yields ih hls h

theorem parseBinary_yields (least : Nat) :
    Yields (parseBinary check? stop least) (Term.WellFormed check?) ls := by
  intro hls t r h
  rw [parseBinary] at h
  obtain ⟨⟨lhs, rest, hlen⟩, hl, h⟩ := ok_of_bind h
  obtain ⟨⟨t', rest'⟩, ht, h⟩ := ok_of_bind h
  cases h
  have hl := parseUnary_yields ih hls hl
  exact (ih rest hlen).climb least lhs hl.1 hl.2 ht

theorem parseExpr_yields : Yields (parseExpr check? stop) (Term.WellFormed check?) ls := by
  intro hls t r h
  rw [parseExpr] at h
  obtain ⟨⟨test, rest, hlen⟩, htest, h⟩ := ok_of_bind h
  have htest := parseBinary_yields ih 1 hls htest
  simp only at h
  split at h
  · next o b ls' hlen _ =>
    obtain ⟨⟨yes, r₁, hlen₁⟩, hyes, h⟩ := ok_of_bind h
    obtain ⟨⟨r₂, hlen₂⟩, hcolon, h⟩ := ok_of_bind h
    obtain ⟨⟨no, r₃⟩, hno, h⟩ := ok_of_bind h
    cases h
    simp only [List.length_cons] at hlen
    have hyes := (ih ls' (by omega)).expr htest.2.of_cons hyes
    have hlen₂ : r₂.length < r₁.length := hlen₂
    have hno := (ih r₂ (by omega)).expr (expect_scanned hyes.2 hcolon) hno
    simp only [Term.WellFormed]
    exact ⟨⟨htest.1, hyes.1, hno.1⟩, hno.2⟩
  · cases h
    exact htest

theorem parseList_yields :
    Yields (parseList check? stop) (fun ts => ts ≠ [] ∧ termsWellFormed check? ts) ls := by
  intro hls ts r h
  rw [parseList] at h
  obtain ⟨⟨t, rest, hlen⟩, ht, h⟩ := ok_of_bind h
  obtain ⟨⟨ts', rest'⟩, hts, h⟩ := ok_of_bind h
  cases h
  have ht := parseExpr_yields ih hls ht
  have hts := (ih rest hlen).more ht.2 hts
  simp only [termsWellFormed]
  exact ⟨⟨by simp, ht.1, hts.1⟩, hts.2⟩

theorem parseCall_yields (name : String) (offset : Nat) :
    Yields (parseCall check? stop name offset) (CallWellFormed check?) ls := by
  intro hls call r h
  unfold parseCall at h
  split at h
  · obtain ⟨call', hcall, h⟩ := ok_of_bind h
    cases h
    have hnil : termsWellFormed check? [] := by
      simp only [termsWellFormed]
    exact ⟨checkCall_wellFormed hnil hcall, hls.of_cons⟩
  · obtain ⟨⟨args, r₁, hlen₁⟩, hargs, h⟩ := ok_of_bind h
    obtain ⟨⟨r₂, hlen₂⟩, hparen, h⟩ := ok_of_bind h
    obtain ⟨call', hcall, h⟩ := ok_of_bind h
    cases h
    have hargs := parseList_yields ih hls hargs
    have hrest := expect_scanned hargs.2 hparen
    exact ⟨checkCall_wellFormed hargs.1.2 hcall, hrest⟩

theorem parseBracket_yields :
    Yields (parseBracket check? stop) (SelectorWellFormed check?) ls := by
  intro hls s r h
  unfold parseBracket at h
  unfold SelectorWellFormed
  split at h
  · cases h
    simp only [Segment.WellFormed]
    exact ⟨⟨trivial, rfl⟩, hls.of_cons.of_cons⟩
  · cases h
    simp only [Segment.WellFormed]
    exact ⟨⟨toInt_ne_minValue (hls _ List.mem_cons_self), rfl⟩, hls.of_cons.of_cons⟩
  · cases h
    simp only [Segment.WellFormed]
    exact ⟨⟨trivial, rfl⟩, hls.of_cons.of_cons⟩
  · next o b ls' =>
    obtain ⟨⟨t, r₁, hlen₁⟩, ht, h⟩ := ok_of_bind h
    obtain ⟨⟨r₂, hlen₂⟩, hclose, h⟩ := ok_of_bind h
    cases h
    have ht := (ih ls' (Nat.lt_succ_self _)).expr hls.of_cons ht
    simp only [Segment.WellFormed]
    have hrest := expect_scanned ht.2 hclose
    exact ⟨⟨ht.1, rfl⟩, hrest⟩
  · obtain ⟨found, hfound, h⟩ := ok_of_bind h
    cases found with
    | some found =>
      obtain ⟨s', r₁, hlen₁⟩ := found
      obtain ⟨⟨r₂, hlen₂⟩, hclose, h⟩ := ok_of_bind h
      cases h
      have hs := slice?_wellFormed check? hls hfound
      have hrest := expect_scanned hs.2.2 hclose
      exact ⟨⟨hs.1, hs.2.1⟩, hrest⟩
    | none =>
      obtain ⟨⟨t, r₁, hlen₁⟩, ht, h⟩ := ok_of_bind h
      obtain ⟨⟨r₂, hlen₂⟩, hclose, h⟩ := ok_of_bind h
      cases h
      have ht := parseExpr_yields ih hls ht
      have hrest := expect_scanned ht.2 hclose
      exact ⟨bracketSegment_wellFormed ht.1, hrest⟩

end

theorem produces (check? : Signatures) (stop : Nat) (ls : List Lexeme) :
    Produces check? stop ls := by
  induction hn : ls.length using Nat.strongRecOn generalizing ls with
  | ind n ih =>
    have ih : ∀ rest : List Lexeme, rest.length < ls.length → Produces check? stop rest :=
      fun rest hrest => ih rest.length (hn ▸ hrest) rest rfl
    exact ⟨parseList_yields ih, parseMore_yields ih, parseExpr_yields ih, parseBinary_yields ih,
      climb_yields ih, parseUnary_yields ih, parseSegments_yields ih, parseCall_yields ih,
      parseDotted_yields ih, parseBracket_yields ih⟩

end Parser
theorem ok_of_mapError {ε ε' α : Type} {x : Except ε α} {f : ε → ε'} {a : α}
    (h : x.mapError f = .ok a) : x = .ok a := by
  cases x with
  | error e => cases h
  | ok b =>
    cases h
    rfl

/-- The parser returns well-formed terms, and at least one. -/
theorem parse_wellFormed {check? : Signatures} {source : String} {ts : List Term}
    (h : parse check? source = .ok ts) : ts ≠ [] ∧ termsWellFormed check? ts := by
  obtain ⟨tokens, htokens, h⟩ := ok_of_bind h
  have hscanned := scanned_ofTokens
    (Lexer.tokensFrom_scanned (ok_of_mapError htokens)) false
  have h := ok_of_mapError h
  unfold Parser.parseAll at h
  split at h
  · cases h
  · obtain ⟨⟨ts', rest⟩, hts, h⟩ := ok_of_bind h
    have hts := (Parser.produces check? _ _).list hscanned hts
    simp only at h
    split at h
    · cases h
      exact hts.1
    · cases h

end PathQuery
