import PathQuery.Proofs.Expression.Produced

/-!
# Where whitespace matters

Lexemes are alike if they are of the same kinds and agree on the blanks before each token that can go
on with a path; what is first among them may have blanks before it or not. A rule of the grammar that
reads alike lexemes returns the same value and leaves alike lexemes, or fails for the same cause. The
rules are gone through by induction on the number of lexemes, two runs at a time.
-/

namespace PathQuery
namespace Parser

/-! ### Alike lexemes -/

/-- The same kinds, with the same blanks before each token that can begin a segment. -/
inductive Alike : List Lexeme → List Lexeme → Prop where
  | nil : Alike [] []
  | cons {k : TokenKind} {o o' : Nat} {s s' : Bool} {ls ls' : List Lexeme}
      (hs : beginsSegment k = true → s = s') (h : Alike ls ls') :
      Alike (⟨k, o, s⟩ :: ls) (⟨k, o', s'⟩ :: ls')

/-- The same kinds, and alike but for the blanks before the first. -/
inductive AlikeAfterFirst : List Lexeme → List Lexeme → Prop where
  | nil : AlikeAfterFirst [] []
  | cons (k : TokenKind) {o o' : Nat} {s s' : Bool} {ls ls' : List Lexeme} (h : Alike ls ls') :
      AlikeAfterFirst (⟨k, o, s⟩ :: ls) (⟨k, o', s'⟩ :: ls')

theorem Alike.afterFirst {ls ls' : List Lexeme} (h : Alike ls ls') : AlikeAfterFirst ls ls' := by
  cases h with
  | nil => exact .nil
  | cons _ h => exact .cons _ h

/-! ### Outcomes -/

/-- Two results that are related, or two faults for the same cause. -/
inductive SameOutcome {α β : Type} (R : α → β → Prop) : Except Fault α → Except Fault β → Prop where
  | ok {a : α} {b : β} (h : R a b) : SameOutcome R (.ok a) (.ok b)
  | error {e e' : Fault} (h : e.cause = e'.cause) : SameOutcome R (.error e) (.error e')

theorem SameOutcome.bind {α β γ δ : Type} {R : α → β → Prop} {S : γ → δ → Prop}
    {x : Except Fault α} {y : Except Fault β} {f : α → Except Fault γ} {g : β → Except Fault δ}
    (h : SameOutcome R x y) (hfg : ∀ a b, R a b → SameOutcome S (f a) (g b)) :
    SameOutcome S (x >>= f) (y >>= g) := by
  cases h with
  | ok h => exact hfg _ _ h
  | error h => exact .error h

theorem SameOutcome.ite {α β : Type} {R : α → β → Prop} {c c' : Prop} [Decidable c] [Decidable c']
    {x y : Except Fault α} {x' y' : Except Fault β} (hc : c ↔ c') (hx : c → SameOutcome R x x')
    (hy : ¬ c → SameOutcome R y y') :
    SameOutcome R (if c then x else y) (if c' then x' else y') := by
  by_cases h : c
  · rw [if_pos h, if_pos (hc.mp h)]
    exact hx h
  · rw [if_neg h, if_neg (mt hc.mpr h)]
    exact hy h

/-- The same value, with alike lexemes left. -/
def Agree {α : Type} {p p' : List Lexeme → Prop} (x : α × { rest // p rest })
    (x' : α × { rest // p' rest }) : Prop :=
  x.1 = x'.1 ∧ Alike x.2.1 x'.2.1

theorem SameOutcome.andThen {α γ δ : Type} {p p' : List Lexeme → Prop} {S : γ → δ → Prop}
    {x : Except Fault (α × { rest // p rest })} {y : Except Fault (α × { rest // p' rest })}
    {f : α × { rest // p rest } → Except Fault γ} {g : α × { rest // p' rest } → Except Fault δ}
    (h : SameOutcome Agree x y)
    (hfg : ∀ a rest hr rest' hr', Alike rest rest' →
      SameOutcome S (f (a, ⟨rest, hr⟩)) (g (a, ⟨rest', hr'⟩))) :
    SameOutcome S (x >>= f) (y >>= g) := by
  refine h.bind ?_
  rintro ⟨a, rest, hr⟩ ⟨_, rest', hr'⟩ ⟨rfl, hrest⟩
  exact hfg a rest hr rest' hr' hrest

/-! ### Pieces without recursion -/

section

variable {stop stop' : Nat} {ls ls' : List Lexeme}

theorem unexpected_cause (what : Expectation) (h : AlikeAfterFirst ls ls') :
    (unexpected stop what ls).cause = (unexpected stop' what ls').cause := by
  cases h <;> rfl

theorem AlikeAfterFirst.head_kind (h : AlikeAfterFirst ls ls') :
    ls.head?.map Lexeme.kind = ls'.head?.map Lexeme.kind := by
  cases h <;> rfl

theorem expect_alike (s : Symbol) (h : AlikeAfterFirst ls ls') :
    SameOutcome (fun r r' => Alike r.1 r'.1) (expect stop s ls) (expect stop' s ls') := by
  cases h with
  | nil => exact .error rfl
  | cons k h =>
    rw [expect, expect]
    by_cases hk : k = .symbol s
    · rw [if_pos hk, if_pos hk]
      exact .ok h
    · rw [if_neg hk, if_neg hk]
      exact .error rfl

theorem signedInteger_alike (h : AlikeAfterFirst ls ls') :
    (signedInteger ls).1 = (signedInteger ls').1 ∧
      AlikeAfterFirst (signedInteger ls).2.1 (signedInteger ls').2.1 := by
  cases h with
  | nil => exact ⟨rfl, .nil⟩
  | cons k h =>
    cases k with
    | integer i => exact ⟨rfl, h.afterFirst⟩
    | symbol s =>
      cases s with
      | minus =>
        cases h with
        | nil => exact ⟨rfl, .cons _ .nil⟩
        | @cons k _ _ _ _ _ _ hspaced h =>
          cases k with
          | integer i =>
            simp only [signedInteger]
            cases fitInt64? (-i.toInt) with
            | none => exact ⟨rfl, .cons _ (.cons hspaced h)⟩
            | some n => exact ⟨rfl, h.afterFirst⟩
          | _ => exact ⟨rfl, .cons _ (.cons hspaced h)⟩
      | _ => exact ⟨rfl, .cons _ h⟩
    | _ => exact ⟨rfl, .cons _ h⟩

theorem colon?_alike (h : AlikeAfterFirst ls ls') :
    Option.Rel (fun r r' => Alike r.1 r'.1) (colon? ls) (colon? ls') := by
  cases h with
  | nil => exact .none
  | cons k h =>
    by_cases hk : k = .symbol .colon
    · subst hk
      exact .some h
    · have hnone {o : Nat} {s : Bool} {ls : List Lexeme} : colon? (⟨k, o, s⟩ :: ls) = none := by
        simp [colon?, hk]
      rw [hnone, hnone]
      exact .none

theorem slice?_alike (h : AlikeAfterFirst ls ls') :
    SameOutcome (Option.Rel fun x x' => x.1 = x'.1 ∧ AlikeAfterFirst x.2.1 x'.2.1)
      (slice? stop ls) (slice? stop' ls') := by
  obtain ⟨hfirst, hafterFirst⟩ := signedInteger_alike h
  have hcolon := colon?_alike hafterFirst
  unfold slice?
  simp only [hfirst]
  generalize colon? (signedInteger ls).2.1 = found at hcolon ⊢
  generalize colon? (signedInteger ls').2.1 = found' at hcolon ⊢
  cases hcolon with
  | none =>
    -- neither run is at a slice, and both go back to where they began
    exact .ok .none
  | @some afterColon afterColon' hrest =>
    obtain ⟨hlast, hafterLast⟩ := signedInteger_alike hrest.afterFirst
    have hmark := colon?_alike hafterLast
    simp only [hlast]
    generalize colon? (signedInteger afterColon.1).2.1 = mark at hmark ⊢
    generalize colon? (signedInteger afterColon'.1).2.1 = mark' at hmark ⊢
    cases hmark with
    | none =>
      exact .ite Iff.rfl (fun _ => .error rfl) fun _ =>
        .ite (by rw [hafterLast.head_kind]) (fun _ => .ok (.some ⟨rfl, hafterLast⟩))
          fun _ => .error (unexpected_cause _ hafterLast)
    | some hrest =>
      obtain ⟨hstep, hafterStep⟩ := signedInteger_alike hrest.afterFirst
      simp only [hstep]
      exact .ite Iff.rfl (fun _ => .error rfl) fun _ =>
        .ite (by rw [hafterStep.head_kind]) (fun _ => .ok (.some ⟨rfl, hafterStep⟩))
          fun _ => .error (unexpected_cause _ hafterStep)

theorem checkCall_alike (check? : Signatures) (name : String) (offset offset' : Nat)
    (args : List Term) :
    SameOutcome Eq (checkCall check? name offset args) (checkCall check? name offset' args) := by
  unfold checkCall
  split
  · exact .error rfl
  · split
    · exact .error rfl
    · exact .ok rfl

end

/-! ### The grammar -/

/-- What each rule returns from `ls` and from `ls'`, if they are as alike as the rule needs. A rule that
is tried after a point where a path may go on needs the blanks before the first to agree. -/
structure Corresponds (check? : Signatures) (stop stop' : Nat) (ls ls' : List Lexeme) : Prop where
  list : AlikeAfterFirst ls ls' →
    SameOutcome Agree (parseList check? stop ls) (parseList check? stop' ls')
  more : Alike ls ls' → SameOutcome Agree (parseMore check? stop ls) (parseMore check? stop' ls')
  expr : AlikeAfterFirst ls ls' →
    SameOutcome Agree (parseExpr check? stop ls) (parseExpr check? stop' ls')
  binary : AlikeAfterFirst ls ls' → ∀ least,
    SameOutcome Agree (parseBinary check? stop least ls) (parseBinary check? stop' least ls')
  climb : Alike ls ls' → ∀ least lhs,
    SameOutcome Agree (climb check? stop least lhs ls) (climb check? stop' least lhs ls')
  unary : AlikeAfterFirst ls ls' →
    SameOutcome Agree (parseUnary check? stop ls) (parseUnary check? stop' ls')
  segments : Alike ls ls' →
    SameOutcome Agree (parseSegments check? stop ls) (parseSegments check? stop' ls')
  call : Alike ls ls' → ∀ name offset offset',
    SameOutcome Agree (parseCall check? stop name offset ls) (parseCall check? stop' name offset' ls')
  dotted : Alike ls ls' →
    SameOutcome Agree (parseDotted check? stop ls) (parseDotted check? stop' ls')
  bracket : Alike ls ls' →
    SameOutcome Agree (parseBracket check? stop ls) (parseBracket check? stop' ls')

section

variable {check? : Signatures} {stop stop' : Nat} {ls ls' : List Lexeme}

variable (ih : ∀ rest rest', rest.length < ls.length → Corresponds check? stop stop' rest rest')
include ih

theorem parseMore_alike (h : Alike ls ls') :
    SameOutcome Agree (parseMore check? stop ls) (parseMore check? stop' ls') := by
  cases h with
  | nil =>
    rw [parseMore, parseMore]
    · exact .ok ⟨rfl, .nil⟩
    all_goals simp
  | @cons k _ _ _ _ ls ls' hs h =>
    by_cases hk : k = .symbol .comma
    · subst hk
      rw [parseMore, parseMore]
      refine ((ih ls ls' (Nat.lt_succ_self _)).expr h.afterFirst).andThen ?_
      intro t rest hlen rest' _ hrest
      refine ((ih rest rest' (Nat.lt_succ_of_lt hlen)).more hrest).andThen ?_
      intro ts rest _ rest' _ hrest
      exact .ok ⟨rfl, hrest⟩
    · rw [parseMore, parseMore]
      · exact .ok ⟨rfl, .cons hs h⟩
      all_goals simp [hk]

theorem climb_alike (h : Alike ls ls') (least : Nat) (lhs : Term) :
    SameOutcome Agree (climb check? stop least lhs ls) (climb check? stop' least lhs ls') := by
  cases h with
  | nil =>
    rw [climb, climb]
    exact .ok ⟨rfl, .nil⟩
  | @cons k _ _ _ _ ls ls' hs h =>
    rw [climb, climb]
    cases binaryOp? k with
    | none => exact .ok ⟨rfl, .cons hs h⟩
    | some op =>
      refine .ite Iff.rfl (fun _ => .ok ⟨rfl, .cons hs h⟩) fun _ => ?_
      refine ((ih ls ls' (Nat.lt_succ_self _)).binary h.afterFirst _).andThen ?_
      intro rhs rest hlen rest' _ hrest
      refine ((ih rest rest' (Nat.lt_succ_of_lt hlen)).climb hrest _ _).andThen ?_
      intro t rest _ rest' _ hrest
      exact .ok ⟨rfl, hrest⟩

theorem parseDotted_alike (h : Alike ls ls') :
    SameOutcome Agree (parseDotted check? stop ls) (parseDotted check? stop' ls') := by
  cases h with
  | nil =>
    rw [parseDotted, parseDotted]
    · exact .error rfl
    all_goals simp
  | @cons k o o' _ _ ls ls' hs h =>
    by_cases hstar : k = .symbol .star
    · subst hstar
      rw [parseDotted, parseDotted]
      exact .ok ⟨rfl, h⟩
    cases k with
    | name n | string n | integer i =>
      rw [parseDotted, parseDotted]
      exact .ok ⟨rfl, h⟩
    | function name =>
      rw [parseDotted, parseDotted]
      refine ((ih ls ls' (Nat.lt_succ_self _)).call h name o o').andThen ?_
      intro call rest _ rest' _ hrest
      exact .ok ⟨rfl, hrest⟩
    | _ =>
      rw [parseDotted, parseDotted]
      · exact .error rfl
      all_goals simp_all

theorem parseSegment_alike (h : AlikeAfterFirst ls ls') :
    SameOutcome (Option.Rel Agree) (parseSegment check? stop ls) (parseSegment check? stop' ls') := by
  cases h with
  | nil =>
    rw [parseSegment, parseSegment]
    · exact .ok .none
    all_goals simp
  | @cons k _ _ _ _ ls ls' h =>
    cases hk : beginsSegment k with
    | false =>
      rw [parseSegment_none check? stop hk, parseSegment_none check? stop' hk]
      exact .ok .none
    | true =>
      have hpoint : k = .symbol .dot ∨ k = .symbol .dotDot ∨ k = .symbol .dotDotStar ∨
          k = .symbol .leftBracket := by
        unfold beginsSegment at hk
        split at hk <;> simp_all
      rcases hpoint with rfl | rfl | rfl | rfl
      · rw [parseSegment, parseSegment]
        refine ((ih ls ls' (Nat.lt_succ_self _)).dotted h).andThen ?_
        intro s rest _ rest' _ hrest
        exact .ok (.some ⟨rfl, hrest⟩)
      · -- after two dots the rule looks at one lexeme more
        unfold parseSegment
        dsimp only
        split
        · cases h with
          | cons _ h => exact .ok (.some ⟨rfl, h⟩)
        · next ls =>
          cases h with
          | @cons _ _ _ _ _ _ ls' _ h =>
            refine ((ih ls ls' (by simp)).bracket h).andThen ?_
            intro s rest _ rest' _ hrest
            exact .ok (.some ⟨rfl, hrest⟩)
        · next hstar hbracket =>
          split
          · cases h with
            | cons _ h => exact absurd rfl (hstar _ _ _)
          · cases h with
            | cons _ h => exact absurd rfl (hbracket _ _ _)
          · refine ((ih ls ls' (Nat.lt_succ_self _)).dotted h).andThen ?_
            intro s rest _ rest' _ hrest
            exact .ok (.some ⟨rfl, hrest⟩)
      · rw [parseSegment, parseSegment]
        exact .ok (.some ⟨rfl, h⟩)
      · rw [parseSegment, parseSegment]
        refine ((ih ls ls' (Nat.lt_succ_self _)).bracket h).andThen ?_
        intro s rest _ rest' _ hrest
        exact .ok (.some ⟨rfl, hrest⟩)

theorem parseSegments_alike (h : Alike ls ls') :
    SameOutcome Agree (parseSegments check? stop ls) (parseSegments check? stop' ls') := by
  cases h with
  | nil =>
    rw [parseSegments, parseSegments]
    exact .ok ⟨rfl, .nil⟩
  | @cons k o o' s s' ls ls' hs h =>
    have hkept : Alike (⟨k, o, s⟩ :: ls) (⟨k, o', s'⟩ :: ls') := .cons hs h
    cases hk : beginsSegment k with
    | false =>
      -- no segment follows, whether the flags are the same or not
      rw [parseSegments_none fun _ => hk, parseSegments_none fun _ => hk]
      exact .ok ⟨rfl, hkept⟩
    | true =>
      obtain rfl := hs hk
      rw [parseSegments, parseSegments]
      refine .ite Iff.rfl (fun _ => .ok ⟨rfl, hkept⟩) fun _ => ?_
      refine (parseSegment_alike ih (.cons k h)).bind ?_
      intro found found' hfound
      cases hfound with
      | none => exact .ok ⟨rfl, hkept⟩
      | @some x x' hx =>
        obtain ⟨a, rest, hlen⟩ := x
        obtain ⟨_, rest', hlen'⟩ := x'
        obtain ⟨rfl, hrest⟩ := hx
        refine ((ih rest rest' hlen).segments hrest).andThen ?_
        intro ss rest _ rest' _ hrest
        exact .ok ⟨rfl, hrest⟩

theorem parsePrimary_alike (h : AlikeAfterFirst ls ls') :
    SameOutcome Agree (parsePrimary check? stop ls) (parsePrimary check? stop' ls') := by
  cases h with
  | nil =>
    rw [parsePrimary, parsePrimary]
    exact .error rfl
  | @cons k o o' _ _ ls ls' h =>
    by_cases hparen : k = .symbol .leftParen
    · subst hparen
      rw [parsePrimary, parsePrimary]
      refine ((ih ls ls' (Nat.lt_succ_self _)).list h.afterFirst).andThen ?_
      intro ts rest _ rest' _ hrest
      refine (expect_alike .rightParen hrest.afterFirst).bind ?_
      intro rest rest' hrest
      exact .ok ⟨rfl, hrest⟩
    by_cases hfunction : ∃ name, k = .function name
    · obtain ⟨name, rfl⟩ := hfunction
      rw [parsePrimary, parsePrimary]
      refine ((ih ls ls' (Nat.lt_succ_self _)).call h name o o').andThen ?_
      intro call rest _ rest' _ hrest
      exact .ok ⟨rfl, hrest⟩
    · have hfunction : ∀ name, k ≠ .function name := fun name hk => hfunction ⟨name, hk⟩
      rw [parsePrimary, parsePrimary]
      · cases atom? k with
        | some t => exact .ok ⟨rfl, h⟩
        | none =>
          refine (parseSegment_alike ih (.cons k h)).bind ?_
          intro found found' hfound
          cases hfound with
          | none => exact .error rfl
          | some hx => exact .ok ⟨congrArg (fun s => contextPath [s]) hx.1, hx.2⟩
      all_goals simp [hparen, hfunction]

theorem parsePostfix_alike (h : AlikeAfterFirst ls ls') :
    SameOutcome Agree (parsePostfix check? stop ls) (parsePostfix check? stop' ls') := by
  rw [parsePostfix, parsePostfix]
  refine (parsePrimary_alike ih h).andThen ?_
  intro t rest hlen rest' _ hrest
  refine ((ih rest rest' hlen).segments hrest).andThen ?_
  intro ss rest _ rest' _ hrest
  exact .ok ⟨rfl, hrest⟩

theorem parsePower_alike (h : AlikeAfterFirst ls ls') :
    SameOutcome Agree (parsePower check? stop ls) (parsePower check? stop' ls') := by
  rw [parsePower, parsePower]
  refine (parsePostfix_alike ih h).andThen ?_
  intro base rest hlen rest' hlen' hrest
  cases hrest with
  | nil => exact .ok ⟨rfl, .nil⟩
  | @cons k _ _ _ _ r r' hs hr =>
    cases k with
    | symbol s =>
      cases s with
      | starStar =>
        refine ((ih r r' (Nat.lt_of_succ_lt hlen)).unary hr.afterFirst).andThen ?_
        intro exponent rest _ rest' _ hrest
        exact .ok ⟨rfl, hrest⟩
      | _ => exact .ok ⟨rfl, .cons hs hr⟩
    | _ => exact .ok ⟨rfl, .cons hs hr⟩

theorem parseUnary_alike (h : AlikeAfterFirst ls ls') :
    SameOutcome Agree (parseUnary check? stop ls) (parseUnary check? stop' ls') := by
  unfold parseUnary
  split
  · next r =>
    cases h with
    | @cons _ _ _ _ _ _ r' h =>
      refine ((ih r r' (Nat.lt_succ_self _)).unary h.afterFirst).andThen ?_
      intro t rest _ rest' _ hrest
      exact .ok ⟨rfl, hrest⟩
  · next r =>
    cases h with
    | @cons _ _ _ _ _ _ r' h =>
      refine ((ih r r' (Nat.lt_succ_self _)).unary h.afterFirst).andThen ?_
      intro t rest _ rest' _ hrest
      exact .ok ⟨rfl, hrest⟩
  · next hbang hminus =>
    split
    · cases h with
      | cons _ h => exact absurd rfl (hbang _ _ _)
    · cases h with
      | cons _ h => exact absurd rfl (hminus _ _ _)
    · exact parsePower_alike ih h

theorem parseBinary_alike (h : AlikeAfterFirst ls ls') (least : Nat) :
    SameOutcome Agree (parseBinary check? stop least ls) (parseBinary check? stop' least ls') := by
  rw [parseBinary, parseBinary]
  refine (parseUnary_alike ih h).andThen ?_
  intro lhs rest hlen rest' _ hrest
  refine ((ih rest rest' hlen).climb hrest least lhs).andThen ?_
  intro t rest _ rest' _ hrest
  exact .ok ⟨rfl, hrest⟩

theorem parseExpr_alike (h : AlikeAfterFirst ls ls') :
    SameOutcome Agree (parseExpr check? stop ls) (parseExpr check? stop' ls') := by
  rw [parseExpr, parseExpr]
  refine (parseBinary_alike ih h 1).andThen ?_
  intro test rest hlen rest' hlen' hrest
  cases hrest with
  | nil => exact .ok ⟨rfl, .nil⟩
  | @cons k _ _ _ _ r r' hs hr =>
    cases k with
    | symbol s =>
      cases s with
      | question =>
        rw [List.length_cons] at hlen
        refine ((ih r r' (by omega)).expr hr.afterFirst).andThen ?_
        intro yes r₁ hlen₁ r₁' _ hr₁
        refine (expect_alike .colon hr₁.afterFirst).bind ?_
        rintro ⟨r₂, hlen₂⟩ ⟨r₂', hlen₂'⟩ hr₂
        refine ((ih r₂ r₂' (by omega)).expr hr₂.afterFirst).andThen ?_
        intro no r₃ _ r₃' _ hr₃
        exact .ok ⟨rfl, hr₃⟩
      | _ => exact .ok ⟨rfl, .cons hs hr⟩
    | _ => exact .ok ⟨rfl, .cons hs hr⟩

theorem parseList_alike (h : AlikeAfterFirst ls ls') :
    SameOutcome Agree (parseList check? stop ls) (parseList check? stop' ls') := by
  rw [parseList, parseList]
  refine (parseExpr_alike ih h).andThen ?_
  intro t rest hlen rest' _ hrest
  refine ((ih rest rest' hlen).more hrest).andThen ?_
  intro ts rest _ rest' _ hrest
  exact .ok ⟨rfl, hrest⟩

theorem parseCall_alike (h : Alike ls ls') (name : String) (offset offset' : Nat) :
    SameOutcome Agree (parseCall check? stop name offset ls)
      (parseCall check? stop' name offset' ls') := by
  unfold parseCall
  split
  · cases h with
    | cons _ h =>
      refine (checkCall_alike check? name offset offset' []).bind ?_
      rintro call _ rfl
      exact .ok ⟨rfl, h⟩
  · next hparen =>
    split
    · cases h with
      | cons _ h => exact absurd rfl (hparen _ _ _)
    · refine (parseList_alike ih h.afterFirst).andThen ?_
      intro args r₁ _ r₁' _ hr₁
      refine (expect_alike .rightParen hr₁.afterFirst).bind ?_
      intro r₂ r₂' hr₂
      refine (checkCall_alike check? name offset offset' args).bind ?_
      rintro call _ rfl
      exact .ok ⟨rfl, hr₂⟩

theorem parseBracket_alike (h : Alike ls ls') :
    SameOutcome Agree (parseBracket check? stop ls) (parseBracket check? stop' ls') := by
  unfold parseBracket
  split
  · obtain _ | ⟨_, _ | ⟨_, h⟩⟩ := h
    exact .ok ⟨rfl, h⟩
  · obtain _ | ⟨_, _ | ⟨_, h⟩⟩ := h
    exact .ok ⟨rfl, h⟩
  · obtain _ | ⟨_, _ | ⟨_, h⟩⟩ := h
    exact .ok ⟨rfl, h⟩
  · next r =>
    cases h with
    | @cons _ _ _ _ _ _ r' _ h =>
      refine ((ih r r' (Nat.lt_succ_self _)).expr h.afterFirst).andThen ?_
      intro t r₁ _ r₁' _ hr₁
      refine (expect_alike .rightBracket hr₁.afterFirst).bind ?_
      intro r₂ r₂' hr₂
      exact .ok ⟨rfl, hr₂⟩
  · next hstar hindex hstring hfilter =>
    split
    · obtain _ | ⟨_, _ | ⟨_, h⟩⟩ := h
      exact absurd rfl (hstar _ _ _ _ _)
    · obtain _ | ⟨_, _ | ⟨_, h⟩⟩ := h
      exact absurd rfl (hindex _ _ _ _ _ _)
    · obtain _ | ⟨_, _ | ⟨_, h⟩⟩ := h
      exact absurd rfl (hstring _ _ _ _ _ _)
    · obtain _ | ⟨_, h⟩ := h
      exact absurd rfl (hfilter _ _ _)
    · refine (slice?_alike h.afterFirst).bind ?_
      intro found found' hfound
      cases hfound with
      | none =>
        refine (parseExpr_alike ih h.afterFirst).andThen ?_
        intro t r₁ _ r₁' _ hr₁
        refine (expect_alike .rightBracket hr₁.afterFirst).bind ?_
        intro r₂ r₂' hr₂
        exact .ok ⟨rfl, hr₂⟩
      | some hx =>
        refine (expect_alike .rightBracket hx.2).bind ?_
        intro r₂ r₂' hr₂
        exact .ok ⟨hx.1, hr₂⟩

end

theorem corresponds (check? : Signatures) (stop stop' : Nat) (ls ls' : List Lexeme) :
    Corresponds check? stop stop' ls ls' := by
  -- a rule that another one calls on the same lexemes is there by name, not by induction
  induction hn : ls.length using Nat.strongRecOn generalizing ls ls' with
  | ind n ih =>
    have ih : ∀ rest rest' : List Lexeme, rest.length < ls.length →
        Corresponds check? stop stop' rest rest' :=
      fun rest rest' hrest => ih rest.length (hn ▸ hrest) rest rest' rfl
    exact ⟨parseList_alike ih, parseMore_alike ih, parseExpr_alike ih, parseBinary_alike ih,
      climb_alike ih, parseUnary_alike ih, parseSegments_alike ih, parseCall_alike ih,
      parseDotted_alike ih, parseBracket_alike ih⟩

theorem parseAll_alike (check? : Signatures) (stop stop' : Nat) {ls ls' : List Lexeme}
    (h : AlikeAfterFirst ls ls') :
    SameOutcome Eq (parseAll check? stop ls) (parseAll check? stop' ls') := by
  unfold parseAll
  have hempty : ls.isEmpty = ls'.isEmpty := by cases h <;> rfl
  refine .ite (by rw [hempty]) (fun _ => .error rfl) fun _ => ?_
  refine ((corresponds check? stop stop' ls ls').list h).andThen ?_
  intro ts rest _ rest' _ hrest
  cases hrest with
  | nil => exact .ok rfl
  | cons => exact .error rfl

end Parser

/-! ### Sources -/

/-- The tokens other than whitespace, each with whether whitespace is the token before it. -/
def spacedKinds (ts : List Token) : List Sign :=
  (ts.zip (none :: ts.map fun t => some t.kind)).filterMap fun (t, before) =>
    if t.kind = .whitespace then none else some (t.kind, decide (before = some .whitespace))

theorem map_sign_ofTokens (before : Option TokenKind) (ts : List Token) :
    (Lexeme.ofTokens (decide (before = some .whitespace)) ts).map Lexeme.sign =
      (ts.zip (before :: ts.map fun t => some t.kind)).filterMap fun (t, before) =>
        if t.kind = .whitespace then none else some (t.kind, decide (before = some .whitespace)) := by
  induction ts generalizing before with
  | nil => rfl
  | cons t ts ih =>
    have htail := ih (some t.kind)
    rw [List.map_cons, List.zip_cons_cons, List.filterMap_cons, ← htail, Lexeme.ofTokens]
    by_cases ht : t.kind = .whitespace
    · simp [ht]
    · simp [ht, Lexeme.sign]

theorem spacedKinds_eq (ts : List Token) :
    spacedKinds ts = (Lexeme.ofTokens false ts).map Lexeme.sign :=
  (map_sign_ofTokens none ts).symm

theorem map_kind_ofTokens (spaced : Bool) (ts : List Token) :
    (Lexeme.ofTokens spaced ts).map Lexeme.kind =
      (ts.map Token.kind).filter fun k => decide (k ≠ .whitespace) := by
  induction ts generalizing spaced with
  | nil => rfl
  | cons t ts ih =>
    rw [Lexeme.ofTokens]
    by_cases ht : t.kind = .whitespace
    · simp [ht, ih]
    · simp [ht, ih]

namespace Parser

theorem exists_of_map_kind {k : TokenKind} {o : Nat} {s : Bool} {ls ls' : List Lexeme}
    (h : (⟨k, o, s⟩ :: ls : List Lexeme).map Lexeme.kind = ls'.map Lexeme.kind) :
    ∃ o' s' rest, ls' = ⟨k, o', s'⟩ :: rest ∧ ls.map Lexeme.kind = rest.map Lexeme.kind := by
  obtain ⟨⟨k', o', s'⟩, rest, rfl, hkind, hrest⟩ := List.map_eq_cons_iff.mp h.symm
  cases hkind
  exact ⟨o', s', rest, rfl, hrest.symm⟩

theorem alike_of_kinds {ls ls' : List Lexeme} (hkinds : ls.map Lexeme.kind = ls'.map Lexeme.kind)
    (hspaced : ∀ p ∈ (ls.map Lexeme.sign).zip (ls'.map Lexeme.sign),
      beginsSegment p.1.1 = true → p.1.2 = p.2.2) : Alike ls ls' := by
  induction ls generalizing ls' with
  | nil =>
    rw [List.map_eq_nil_iff.mp hkinds.symm]
    exact .nil
  | cons l ls ih =>
    obtain ⟨o', s', ls', rfl, hrest⟩ := exists_of_map_kind hkinds
    rw [List.map_cons, List.map_cons, List.zip_cons_cons, List.forall_mem_cons] at hspaced
    exact .cons hspaced.1 (ih hrest hspaced.2)

theorem alikeAfterFirst_of_kinds {ls ls' : List Lexeme}
    (hkinds : ls.map Lexeme.kind = ls'.map Lexeme.kind)
    (hspaced : ∀ p ∈ ((ls.map Lexeme.sign).zip (ls'.map Lexeme.sign)).tail,
      beginsSegment p.1.1 = true → p.1.2 = p.2.2) : AlikeAfterFirst ls ls' := by
  cases ls with
  | nil =>
    rw [List.map_eq_nil_iff.mp hkinds.symm]
    exact .nil
  | cons l ls =>
    obtain ⟨o', s', ls', rfl, hrest⟩ := exists_of_map_kind hkinds
    exact .cons l.kind (alike_of_kinds hrest hspaced)

end Parser

theorem parse_eq_of_alike (check? : Signatures) {source source' : String} {ts ts' : List Token}
    (h : tokenize source = .ok ts) (h' : tokenize source' = .ok ts')
    (halike : Parser.AlikeAfterFirst (Lexeme.ofTokens false ts) (Lexeme.ofTokens false ts')) :
    (parse check? source).mapError SyntaxError.message =
      (parse check? source').mapError SyntaxError.message := by
  have hall := Parser.parseAll_alike check? (byteLength source.toList) (byteLength source'.toList)
    halike
  rw [parse, parse, h, h']
  simp only [bind, Except.bind]
  generalize Parser.parseAll check? (byteLength source.toList) _ = outcome at hall ⊢
  generalize Parser.parseAll check? (byteLength source'.toList) _ = outcome' at hall ⊢
  cases hall with
  | ok hterms => rw [hterms]; rfl
  | @error e e' hcause =>
    simp only [Except.mapError, SyntaxError.message, SyntaxError.ofFault, hcause]

/-- Whitespace matters only where a path goes on. Two sources with the same tokens but for whitespace,
which agree on the whitespace before each `.`, `..`, `..*` and `[` after the first token, are parsed
to the same terms or are refused with the same message. -/
theorem parse_eq_of_spacing {check? : Signatures} {source source' : String} {ts ts' : List Token}
    (h : tokenize source = .ok ts) (h' : tokenize source' = .ok ts')
    (hkinds : ((ts.map Token.kind).filter fun k => decide (k ≠ .whitespace)) =
      (ts'.map Token.kind).filter fun k => decide (k ≠ .whitespace))
    (hspaced : ∀ p ∈ ((spacedKinds ts).zip (spacedKinds ts')).tail,
      Parser.beginsSegment p.1.1 = true → p.1.2 = p.2.2) :
    (parse check? source).mapError SyntaxError.message =
      (parse check? source').mapError SyntaxError.message := by
  refine parse_eq_of_alike check? h h' (Parser.alikeAfterFirst_of_kinds ?_ ?_)
  · rw [map_kind_ofTokens, map_kind_ofTokens, hkinds]
  · rw [← spacedKinds_eq, ← spacedKinds_eq]
    exact hspaced

/-- Blanks in brackets, around an operator and before the first token. -/
theorem parse_eq_of_spacing_brackets :
    let source := "a[ 1 ].b+c"
    let source' := " a[1].b + c"
    let ts : List Token := [⟨.name "a", 0, "a"⟩, ⟨.symbol .leftBracket, 1, "["⟩,
      ⟨.whitespace, 2, " "⟩, ⟨.integer 1, 3, "1"⟩, ⟨.whitespace, 4, " "⟩,
      ⟨.symbol .rightBracket, 5, "]"⟩, ⟨.symbol .dot, 6, "."⟩, ⟨.name "b", 7, "b"⟩,
      ⟨.symbol .plus, 8, "+"⟩, ⟨.name "c", 9, "c"⟩]
    let ts' : List Token := [⟨.whitespace, 0, " "⟩, ⟨.name "a", 1, "a"⟩,
      ⟨.symbol .leftBracket, 2, "["⟩, ⟨.integer 1, 3, "1"⟩, ⟨.symbol .rightBracket, 4, "]"⟩,
      ⟨.symbol .dot, 5, "."⟩, ⟨.name "b", 6, "b"⟩, ⟨.whitespace, 7, " "⟩, ⟨.symbol .plus, 8, "+"⟩,
      ⟨.whitespace, 9, " "⟩, ⟨.name "c", 10, "c"⟩]
    tokenize source = .ok ts ∧ tokenize source' = .ok ts' ∧
      (parse (fun _ => none) source).mapError SyntaxError.message =
        (parse (fun _ => none) source').mapError SyntaxError.message := by
  intro source source' ts ts'
  have h : tokenize source = .ok ts := by decide +kernel
  have h' : tokenize source' = .ok ts' := by decide +kernel
  have hkinds : ((ts.map Token.kind).filter fun k => decide (k ≠ .whitespace)) =
      (ts'.map Token.kind).filter fun k => decide (k ≠ .whitespace) := by decide +kernel
  have hspaced : ∀ p ∈ ((spacedKinds ts).zip (spacedKinds ts')).tail,
      Parser.beginsSegment p.1.1 = true → p.1.2 = p.2.2 := by decide +kernel
  exact ⟨h, h', parse_eq_of_spacing h h' hkinds hspaced⟩

-- a blank before a later point ends the path
example : (parse (fun _ => none) "$.a").isOk = true ∧ (parse (fun _ => none) "$ .a").isOk = false := by
  decide +kernel

end PathQuery
