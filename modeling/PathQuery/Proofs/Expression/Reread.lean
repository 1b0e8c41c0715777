import PathQuery.Proofs.Expression.Rules
import PathQuery.Proofs.Number.Doubles

/-!
# What a canonical text is read as

`Term.reread` is the term that the parser finds in the canonical text of a term. It is the term
itself but for three shapes: an infinity is written like the name `inf`, a bare `*` in brackets like
the selector of every element, and a call at the head of a path like a call of its own.
-/

namespace PathQuery

open PathQuery.Parser

/-! ### The term that is read -/

/-- What the text of a real is read as. -/
def realTerm (r : Float) : Term :=
  match Binary64.ofFloat? r with
  | some x => .literal (.real (if x.negative then -x.reread else x.reread))
  | none =>
    if r.isNaN then contextPath [.child "NaN"]
    else if r < 0.0 then .unary .neg (contextPath [.child "inf"])
    else contextPath [.child "inf"]

def Scalar.reread : Scalar → Term
  | .real r => realTerm r
  | v => .literal v

def headTerm : Segment → Term
  | .call name args => .call name args
  | s => contextPath [s]

/-- What the brackets around a term are read as. -/
def bracketed : Term → Term → Segment
  | .path .context [.wildcard], _ => .anyIndex
  | _, t => .predicate t

mutual

/-- The term that is read from the canonical text of a term. -/
def Term.reread : Term → Term
  | .literal v => v.reread
  | .path .root segments => .path .root (rereadSegments segments)
  | .path .current segments => .path .current (rereadSegments segments)
  | .path .context [] => .path .context []
  | .path .context (s :: ss) => extendPath (headTerm s.reread) (rereadSegments ss)
  | .path (.term t) segments => extendPath t.reread (rereadSegments segments)
  | .call name args => .call name (rereadTerms args)
  | .unary op t => .unary op t.reread
  | .binary op l r => .binary op l.reread r.reread
  | .ternary a b c => .ternary a.reread b.reread c.reread
  | .list ts => .list (rereadTerms ts)

def Segment.reread : Segment → Segment
  | .recursive inner => .recursive inner.reread
  | .filter t => .filter t.reread
  | .predicate t => bracketed t t.reread
  | .call name args => .call name (rereadTerms args)
  | s => s

def rereadSegments : List Segment → List Segment
  | [] => []
  | s :: ss => s.reread :: rereadSegments ss

def rereadTerms : List Term → List Term
  | [] => []
  | t :: ts => t.reread :: rereadTerms ts

end

/-! ### The first lexeme -/

/-- What the first lexeme of a term says about the term. -/
structure Term.Opens (t : Term) (k : TokenKind) : Prop where
  isNumber : ∀ i, k = .integer i → t.isNumber = true ∧ t.isKey = true
  isKey : ∀ s, k = .string s → t.isKey = true
  isWildcard : k = .symbol .star → ∃ segments, t = .path .context (.wildcard :: segments)
  isSigned : k = .symbol .bang ∨ k = .symbol .minus → t.isSigned = true
  isOpen : k ≠ .symbol .rightParen ∧ k ≠ .symbol .question ∧ k ≠ .symbol .colon

/-- A token that several kinds of terms begin with. -/
def isNeutral : TokenKind → Bool
  | .name _ | .function _ | .real _ => true
  | .symbol s => [Symbol.dollar, .atSign, .leftParen, .leftBracket, .dotDot, .dotDotStar].contains s
  | _ => false

theorem Term.Opens.of_isNeutral (t : Term) {k : TokenKind} (hk : isNeutral k = true) :
    t.Opens k := by
  refine ⟨?_, ?_, ?_, ?_, ?_⟩
  · rintro i rfl
    cases hk
  · rintro s rfl
    cases hk
  · rintro rfl
    cases hk
  · rintro (rfl | rfl) <;> cases hk
  · refine ⟨?_, ?_, ?_⟩ <;> rintro rfl <;> cases hk

theorem Term.Opens.of_minus {t : Term} (ht : t.isSigned = true) : t.Opens (.symbol .minus) :=
  ⟨by simp, by simp, by simp, fun _ => ht, by simp⟩

theorem isSigned_of_real {r : Float} (hr : r.isNaN = false)
    (h : (∃ x, Binary64.ofFloat? r = some x ∧ x.negative = true) ∨
      (Binary64.ofFloat? r = none ∧ r < 0.0)) :
    (Term.literal (.real r)).isSigned = true := by
  simp only [Term.isSigned, hr, Bool.not_false, Bool.and_true, decide_eq_true_eq]
  rcases h with ⟨x, hx, hnegative⟩ | ⟨hnone, hlt⟩
  · rw [Binary64.negative_of_ofFloat? hx, decide_eq_true_eq] at hnegative
    exact hnegative
  · rcases Binary64.infinite_cases hnone hr with rfl | rfl
    · exact absurd hlt Binary64.infinity_lt_zero
    · rw [Binary64.toBits_neg_infinity]
      decide

theorem Scalar.exists_opens {v : Scalar} (hv : v.WellFormed) (spaced : Bool) :
    ∃ k ks, v.signs spaced = (k, spaced) :: ks ∧ (Term.literal v).Opens k := by
  cases v with
  | null => exact ⟨_, _, rfl, .of_isNeutral _ rfl⟩
  | bool b => exact ⟨_, _, rfl, .of_isNeutral _ rfl⟩
  | str s => exact ⟨_, _, rfl, by simp, fun _ _ => rfl, by simp, by simp, by simp⟩
  | int i =>
    simp only [Scalar.signs, intSigns]
    cases hint : i.toInt with
    | ofNat n => exact ⟨_, _, rfl, fun _ _ => ⟨rfl, rfl⟩, by simp, by simp, by simp, by simp⟩
    | negSucc n =>
      have hneg : i.toInt < 0 := by omega
      exact ⟨_, _, rfl, .of_minus (by simpa [Term.isSigned] using hneg)⟩
  | real r =>
    simp only [Scalar.WellFormed] at hv
    simp only [Scalar.signs, realSigns]
    cases hx : Binary64.ofFloat? r with
    | some x =>
      simp only
      cases hnegative : x.negative with
      | true => exact ⟨_, _, rfl, .of_minus (isSigned_of_real hv (.inl ⟨x, hx, hnegative⟩))⟩
      | false => exact ⟨_, _, rfl, .of_isNeutral _ rfl⟩
    | none =>
      simp only [hv, Bool.false_eq_true, if_false]
      by_cases hlt : r < 0.0
      · rw [if_pos hlt]
        exact ⟨_, _, rfl, .of_minus (isSigned_of_real hv (.inr ⟨hx, hlt⟩))⟩
      · rw [if_neg hlt]
        exact ⟨_, _, rfl, .of_isNeutral _ rfl⟩

theorem Term.exists_opens {check? : Signatures} {t : Term} (h : t.WellFormed check?)
    (spaced : Bool) : ∃ k ks, t.signs spaced = (k, spaced) :: ks ∧ t.Opens k := by
  cases t with
  | literal v =>
    simp only [Term.WellFormed] at h
    exact v.exists_opens h spaced
  | call name args => exact ⟨_, _, rfl, .of_isNeutral _ rfl⟩
  | binary op l r => exact ⟨_, _, rfl, .of_isNeutral _ rfl⟩
  | ternary a b c => exact ⟨_, _, rfl, .of_isNeutral _ rfl⟩
  | list ts => exact ⟨_, _, rfl, .of_isNeutral _ rfl⟩
  | unary op t =>
    refine ⟨_, _, rfl, ?_⟩
    cases op with
    | not =>
      exact ⟨by simp, by simp, by simp [UnaryOp.symbol], fun _ => rfl, by simp [UnaryOp.symbol]⟩
    | neg => exact .of_minus rfl
  | path start segments =>
    cases start with
    | root => exact ⟨_, _, rfl, .of_isNeutral _ rfl⟩
    | current => exact ⟨_, _, rfl, .of_isNeutral _ rfl⟩
    | term t => exact ⟨_, _, rfl, .of_isNeutral _ rfl⟩
    | context =>
      cases segments with
      | nil =>
        simp only [Term.WellFormed] at h
        exact absurd rfl (h.2.2 rfl)
      | cons s ss =>
        simp only [Term.signs, Start.signs, Start.isLeading, segmentsSigns, List.nil_append,
          Bool.true_and]
        cases s with
        | child name =>
          by_cases hname : isPlainName name = true
          · simp only [Segment.signs, if_pos hname]
            exact ⟨_, _, rfl, .of_isNeutral _ rfl⟩
          · simp only [Segment.signs, if_neg hname]
            exact ⟨_, _, rfl, .of_isNeutral _ rfl⟩
        | wildcard => exact ⟨_, _, rfl, by simp, by simp, fun _ => ⟨ss, rfl⟩, by simp, by simp⟩
        | _ => exact ⟨_, _, rfl, .of_isNeutral _ rfl⟩

theorem Segment.exists_begins (s : Segment) (spaced : Bool) :
    ∃ k ks, s.signs false spaced = (k, spaced) :: ks ∧ beginsSegment k = true := by
  cases s with
  | child name =>
    by_cases hname : isPlainName name = true
    · simp only [Segment.signs, if_pos hname]
      exact ⟨_, _, rfl, rfl⟩
    · simp only [Segment.signs, if_neg hname]
      exact ⟨_, _, rfl, rfl⟩
  | _ => exact ⟨_, _, rfl, rfl⟩

section

variable {check? : Signatures} {t : Term} (h : t.WellFormed check?) (hkey : t.isKey = false)
  (b : Bool) (ks : List Sign)
include h hkey

/-- The brackets around an expression hold none of the other selectors. -/
theorem Term.isDirect_signs (hstar : t ≠ .path .context [.wildcard]) :
    isDirect (t.signs false ++ Symbol.rightBracket.sign b :: ks) = false := by
  obtain ⟨k, ks', hsigns, hopens⟩ := t.exists_opens h false
  by_cases hk : k = .symbol .star
  · obtain ⟨segments, rfl⟩ := hopens.isWildcard hk
    cases segments with
    | nil => exact absurd rfl hstar
    | cons s ss =>
      obtain ⟨k', ks'', hs, hbegins⟩ := s.exists_begins false
      simp only [Term.signs, Start.signs, Start.isLeading, segmentsSigns, Segment.signs, hs,
        dottedSigns, Symbol.sign, List.nil_append, List.cons_append, if_true, isDirect]
      cases k' with
      | symbol s => cases s <;> first | rfl | cases hbegins
      | _ => rfl
  · have hinteger : ∀ i, k ≠ .integer i := fun i hi => by
      rw [(hopens.isNumber i hi).2] at hkey
      cases hkey
    have hstring : ∀ s, k ≠ .string s := fun s hs => by
      rw [hopens.isKey s hs] at hkey
      cases hkey
    rw [hsigns, List.cons_append]
    unfold isDirect
    split
    · next heq => exact absurd (congrArg Prod.fst (List.cons.inj heq).1) hk
    · next heq => exact absurd (congrArg Prod.fst (List.cons.inj heq).1) (hinteger _)
    · next heq => exact absurd (congrArg Prod.fst (List.cons.inj heq).1) (hstring _)
    · next heq => exact absurd (congrArg Prod.fst (List.cons.inj heq).1) hopens.isOpen.2.1
    · rfl

theorem Term.beginsSlice_signs :
    beginsSlice (t.signs false ++ Symbol.rightBracket.sign b :: ks) = false := by
  obtain ⟨k, ks', hsigns, hopens⟩ := t.exists_opens h false
  have hinteger : ∀ i, k ≠ .integer i := fun i hi => by
    rw [(hopens.isNumber i hi).2] at hkey
    cases hkey
  -- only a minus before an integer could begin a slice, and no other term than a literal has one
  by_cases hk : k = .symbol .minus
  · have hsigned := hopens.isSigned (.inr hk)
    cases t with
    | unary op t =>
      cases op with
      | not =>
        rw [Term.signs, UnaryOp.symbol, hk] at hsigns
        cases hsigns
      | neg =>
        simp only [Term.WellFormed] at h
        obtain ⟨k', ks'', hsigns', hopens'⟩ := t.exists_opens h.1 false
        simp only [Term.signs, hsigns', UnaryOp.symbol, Symbol.sign, List.cons_append]
        have hinteger' : ∀ i, k' ≠ .integer i := fun i hi => by
          have hnumber := (hopens'.isNumber i hi).1
          rw [h.2 trivial] at hnumber
          cases hnumber
        cases k' with
        | integer i => exact absurd rfl (hinteger' i)
        | _ => rfl
    | literal v =>
      cases v with
      | int i => cases hkey
      | real r =>
        simp only [Term.signs, Scalar.signs, realSigns]
        cases Binary64.ofFloat? r with
        | some x =>
          simp only
          cases x.negative <;> rfl
        | none =>
          simp only
          split
          · rfl
          · split <;> rfl
      | _ => cases hsigned
    | _ => cases hsigned
  · rw [hsigns, List.cons_append]
    unfold beginsSlice
    split
    · next heq => exact absurd (congrArg Prod.fst (List.cons.inj heq).1) hopens.isOpen.2.2
    · next heq => exact absurd (congrArg Prod.fst (List.cons.inj heq).1) (hinteger _)
    · next heq => exact absurd (congrArg Prod.fst (List.cons.inj heq).1) hk
    · rfl

end

end PathQuery
