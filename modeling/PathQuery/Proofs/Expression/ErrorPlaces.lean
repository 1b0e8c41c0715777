import PathQuery.Proofs.Expression.Sameness
import PathQuery.Proofs.Expression.Tokens

/-!
# Where syntax errors are

A fault of the scanner is a number of whole characters into the text it scans. A fault of a rule of the
grammar is at one of the lexemes that the rule is given, or where the text ends; and what the rule
leaves is an end of what it is given, so a rule that goes on from there has no other places. The rules
are gone through by induction on the number of lexemes. Lexemes start where tokens do, and tokens start
between characters.
-/

namespace PathQuery

/-- The result is a value that `P` holds of, or a fault at a place that `E` holds of. -/
inductive EndsIn {α : Type} (P : α → Prop) (E : Nat → Prop) : Except Fault α → Prop where
  | ok {a : α} (h : P a) : EndsIn P E (.ok a)
  | error {e : Fault} (h : E e.offset) : EndsIn P E (.error e)

namespace EndsIn

variable {α β : Type} {P : α → Prop} {Q : β → Prop} {E E' : Nat → Prop} {x : Except Fault α}

theorem bind {f : α → Except Fault β} (h : EndsIn P E x) (hf : ∀ a, P a → EndsIn Q E (f a)) :
    EndsIn Q E (x >>= f) := by
  cases h with
  | ok h => exact hf _ h
  | error h => exact .error h

theorem map {f : α → β} (h : EndsIn P E x) (hf : ∀ a, P a → Q (f a)) : EndsIn Q E (x.map f) := by
  cases h with
  | ok h => exact .ok (hf _ h)
  | error h => exact .error h

theorem widen (h : EndsIn P E x) (hE : ∀ place, E place → E' place) : EndsIn P E' x := by
  cases h with
  | ok h => exact .ok h
  | error h => exact .error (hE _ h)

theorem offset_of_error {e : Fault} (h : EndsIn P E x) (he : x = .error e) : E e.offset := by
  cases h with
  | ok h => cases he
  | error h =>
    cases he
    exact h

end EndsIn

/-! ### Places in a text -/

/-- In a text that starts at byte `offset`, one of its characters starts at byte `place`, or the text
ends there. -/
def IsBoundary (offset : Nat) (cs : List Char) (place : Nat) : Prop :=
  ∃ before, before <+: cs ∧ place = offset + byteLength before

section

variable {offset place : Nat} {cs rest : List Char}

theorem IsBoundary.start (offset : Nat) (cs : List Char) : IsBoundary offset cs offset :=
  ⟨[], List.nil_prefix, rfl⟩

theorem IsBoundary.stop (offset : Nat) (cs : List Char) :
    IsBoundary offset cs (offset + byteLength cs) :=
  ⟨cs, List.prefix_rfl, rfl⟩

theorem IsBoundary.append (text : List Char)
    (h : IsBoundary (offset + byteLength text) rest place) :
    IsBoundary offset (text ++ rest) place := by
  obtain ⟨before, hbefore, rfl⟩ := h
  exact ⟨text ++ before, (List.prefix_append_right_inj text).mpr hbefore,
    by rw [byteLength_append, Nat.add_assoc]⟩

theorem IsBoundary.cons {c : Char} (h : IsBoundary (offset + c.utf8Size) cs place) :
    IsBoundary offset (c :: cs) place :=
  h.append [c]

theorem fromByte?_append (before after : List Char) :
    fromByte? (byteLength before) (before ++ after) = some after := by
  induction before with
  | nil => cases after <;> rw [byteLength_nil, List.nil_append, fromByte?]
  | cons c before ih =>
    obtain ⟨n, hn⟩ : ∃ n, byteLength (c :: before) = n + 1 :=
      ⟨byteLength (c :: before) - 1, by have := c.utf8Size_pos; rw [byteLength_cons]; omega⟩
    have hrest : n + 1 - c.utf8Size = byteLength before := by
      rw [← hn, byteLength_cons, Nat.add_sub_cancel_left]
    have hle : c.utf8Size ≤ n + 1 := by
      rw [← hn, byteLength_cons]
      exact Nat.le_add_right _ _
    rw [hn, List.cons_append, fromByte?, if_pos hle, hrest, ih]

end

/-! ### Faults of the scanner -/

namespace Lexer

theorem nameBody_places (offset : Nat) (cs : List Char) :
    EndsIn (fun _ => True) (IsBoundary offset cs) (nameBody offset cs) := by
  fun_induction nameBody offset cs with
  | case1 => exact .ok trivial
  | case2 offset => exact .error (.start offset _)
  | case3 offset c cs ih =>
    exact (ih.widen fun _ h => (IsBoundary.cons h).cons).bind fun _ _ => .ok trivial
  | case4 offset c cs _ _ _ ih =>
    exact (ih.widen fun _ h => h.cons).bind fun _ _ => .ok trivial
  | case5 => exact .ok trivial

theorem utf8Size_of_hexValue? {c : Char} {n : Nat} (h : hexValue? c = some n) :
    c.utf8Size = 1 := by
  have hle : c ≤ 'f' := by
    unfold hexValue? at h
    split at h
    · next hc => exact hc.2.trans (by decide)
    split at h
    · next hc => exact hc.2
    split at h
    · next hc => exact hc.2.trans (by decide)
    · cases h
  have hval : c.val ≤ 127 := UInt32.le_trans hle (by decide)
  exact if_pos hval

theorem byteLength_of_escapedChar? {a b c d v : Char} (h : escapedChar? [a, b, c, d] = some v) :
    byteLength [a, b, c, d] = 4 := by
  simp only [byteLength_cons, byteLength_nil]
  by_cases ha : a = '+'
  · subst ha
    obtain ⟨_, _, _, hb, hc, hd, _⟩ := hexNumber?_three.mp (escapedChar?_plus.mp h)
    rw [utf8Size_of_hexValue? hb, utf8Size_of_hexValue? hc, utf8Size_of_hexValue? hd]
    rfl
  · obtain ⟨_, _, _, _, ha, hb, hc, hd, _⟩ := hexNumber?_four.mp ((escapedChar?_digits ha).mp h)
    rw [utf8Size_of_hexValue? ha, utf8Size_of_hexValue? hb, utf8Size_of_hexValue? hc,
      utf8Size_of_hexValue? hd]

/-- A string that is not closed is refused where it starts, an escape after its `u`. -/
theorem stringBody_places (quote : Char) (start offset : Nat) (cs : List Char) :
    EndsIn (fun _ => True) (fun place => place = start ∨ IsBoundary offset cs place)
      (stringBody quote start offset cs) := by
  fun_induction stringBody quote start offset cs with
  | case1 => exact .error (.inl rfl)
  | case2 => exact .error (.inl rfl)
  | case3 offset a b c d rest _ =>
    exact .error (.inr (.append ['\\', 'u'] (.start _ _)))
  | case4 offset a b c d rest v hvalue ih =>
    have hsize : offset + byteLength ['\\', 'u', a, b, c, d] = offset + 6 := by
      have hdigits := byteLength_of_escapedChar? hvalue
      rw [byteLength_cons, byteLength_cons, hdigits]
      rfl
    refine (ih.widen fun place h => h.imp_right fun h => ?_).bind fun _ _ => .ok trivial
    rw [← hsize] at h
    exact h.append _
  | case5 offset cs _ =>
    exact .error (.inr (.append ['\\', 'u'] (.start _ _)))
  | case6 offset e rest _ _ ih =>
    refine (ih.widen fun place h => h.imp_right fun h => ?_).bind fun _ _ => .ok trivial
    exact (IsBoundary.cons h).cons
  | case7 => exact .ok trivial
  | case8 offset c cs _ _ ih =>
    refine (ih.widen fun place h => h.imp_right fun h => ?_).bind fun _ _ => .ok trivial
    exact h.cons

theorem scan_places (offset : Nat) (c : Char) (cs : List Char) :
    EndsIn (fun _ => True) (IsBoundary offset (c :: cs)) (scan offset c cs) := by
  rcases class_cases c with hc | hc | hc | hc | hc
  · rw [scan_blank offset cs hc]
    exact .ok trivial
  · have hquote : c.utf8Size = 1 := by
      simp only [quotes, List.mem_cons, List.not_mem_nil, or_false] at hc
      rcases hc with rfl | rfl <;> rfl
    rw [scan_quote hc]
    refine ((stringBody_places c offset (offset + 1) cs).widen ?_).map fun _ h => h
    rintro place (rfl | h)
    · exact .start _ _
    · rw [← hquote] at h
      exact h.cons
  · rw [scan_digit offset cs hc]
    exact .ok trivial
  · rw [scan_nameStart offset cs hc]
    exact (nameBody_places offset (c :: cs)).map fun _ h => h
  · rw [scan_beginsSymbol offset cs hc]
    cases symbol? (c :: cs) with
    | none => exact .error (.start offset _)
    | some entry => exact .ok trivial

theorem tokensFrom_places (offset : Nat) (cs : List Char) :
    EndsIn (fun _ => True) (IsBoundary offset cs) (tokensFrom offset cs) := by
  induction hn : cs.length using Nat.strongRecOn generalizing offset cs with
  | ind n ih =>
    cases cs with
    | nil =>
      rw [tokensFrom]
      exact .ok trivial
    | cons c cs =>
      rw [tokensFrom]
      refine (scan_places offset c cs).bind ?_
      rintro ⟨kind, extra⟩ -
      have hlen : (cs.drop extra).length < n := by
        rw [List.length_cons] at hn
        rw [List.length_drop]
        omega
      refine ((ih _ hlen _ _ rfl).widen fun place h => ?_).bind fun _ _ => .ok trivial
      have hplace := h.append (c :: cs.take extra)
      rwa [List.cons_append, List.take_append_drop] at hplace

end Lexer

/-! ### Faults of the grammar -/

namespace Parser

/-- One of the lexemes starts at byte `place`, or the text ends there. -/
def IsPlace (stop : Nat) (ls : List Lexeme) (place : Nat) : Prop :=
  place = stop ∨ ∃ l ∈ ls, l.offset = place

/-- A rule that is given `ls` leaves an end of it, or fails at one of its places. -/
def StaysIn {α : Type} {p : List Lexeme → Prop} (stop : Nat) (ls : List Lexeme)
    (x : Except Fault (α × { rest // p rest })) : Prop :=
  EndsIn (fun a => a.2.1 <:+ ls) (IsPlace stop ls) x

section

variable {stop place : Nat} {ls rest : List Lexeme}

theorem IsPlace.head (stop : Nat) (l : Lexeme) (ls : List Lexeme) :
    IsPlace stop (l :: ls) l.offset :=
  .inr ⟨l, List.mem_cons_self, rfl⟩

theorem IsPlace.of_suffix (h : IsPlace stop rest place) (hrest : rest <:+ ls) :
    IsPlace stop ls place :=
  h.imp_right fun ⟨l, hl, hplace⟩ => ⟨l, hrest.subset hl, hplace⟩

theorem isPlace_offsetOf (stop : Nat) (ls : List Lexeme) : IsPlace stop ls (offsetOf stop ls) := by
  cases ls with
  | nil => exact .inl rfl
  | cons l ls => exact .head stop l ls

theorem suffix_cons_cons (l l' : Lexeme) (ls : List Lexeme) : ls <:+ l :: l' :: ls :=
  (List.suffix_cons l' ls).trans (List.suffix_cons l _)

/-- A rule that goes on from what another one leaves has no other places. -/
theorem StaysIn.andThen {α γ : Type} {p : List Lexeme → Prop} {Q : γ → Prop}
    {x : Except Fault (α × { rest // p rest })} {f : α × { rest // p rest } → Except Fault γ}
    (h : StaysIn stop rest x) (hrest : rest <:+ ls)
    (hf : ∀ a rest' hr, rest' <:+ ls → EndsIn Q (IsPlace stop ls) (f (a, ⟨rest', hr⟩))) :
    EndsIn Q (IsPlace stop ls) (x >>= f) := by
  refine (h.widen fun _ hplace => hplace.of_suffix hrest).bind ?_
  rintro ⟨a, rest', hr⟩ hrest'
  exact hf a rest' hr (hrest'.trans hrest)

theorem expect_stays (s : Symbol) (hrest : rest <:+ ls) :
    EndsIn (fun r => r.1 <:+ ls) (IsPlace stop ls) (expect stop s rest) := by
  unfold expect
  split
  · next l rest =>
    split
    · exact .ok ((List.suffix_cons l rest).trans hrest)
    · exact .error ((isPlace_offsetOf stop _).of_suffix hrest)
  · exact .error (.inl rfl)

theorem signedInteger_suffix (ls : List Lexeme) : (signedInteger ls).2.1 <:+ ls := by
  unfold signedInteger
  split
  · exact List.suffix_cons _ _
  · next i o' s' rest =>
    split
    · exact suffix_cons_cons _ _ _
    · exact List.suffix_rfl
  · exact List.suffix_rfl

theorem colon?_suffix {r : Rest ls} (h : colon? ls = some r) : r.1 <:+ ls := by
  unfold colon? at h
  split at h
  · cases h
    exact List.suffix_cons _ _
  · cases h

/-- A slice is refused where it starts, for its step, or where it is not closed. -/
theorem slice?_stays (ls : List Lexeme) :
    EndsIn (fun found => ∀ x ∈ found, x.2.1 <:+ ls) (IsPlace stop ls) (slice? stop ls) := by
  -- whether there is a step or not, the slice ends in the same way
  have hclose {step : Option Int64} {s : Segment} {rest : List Lexeme}
      {hlen : rest.length < ls.length} (hrest : rest <:+ ls) :
      EndsIn (fun found : Option (Segment × Rest ls) => ∀ x ∈ found, x.2.1 <:+ ls)
        (IsPlace stop ls)
        (if step = some 0 then .error ⟨.zeroStep, offsetOf stop ls⟩
        else if rest.head?.map Lexeme.kind = some (.symbol .rightBracket) then
          .ok (some (s, ⟨rest, hlen⟩))
        else .error (unexpected stop .endOfSlice rest)) := by
    split
    · refine .error ?_
      exact isPlace_offsetOf stop ls
    split
    · exact .ok (by simpa using hrest)
    · exact .error ((isPlace_offsetOf stop rest).of_suffix hrest)
  have hfirst := signedInteger_suffix ls
  unfold slice?
  dsimp only
  split
  · exact .ok (by simp)
  · next afterColon _ hcolon =>
    have hafterColon := (colon?_suffix hcolon).trans hfirst
    have hlast := (signedInteger_suffix afterColon).trans hafterColon
    cases hmark : colon? (signedInteger afterColon).2.1 with
    | none => exact hclose hlast
    | some afterMark =>
      have hafterMark := (colon?_suffix hmark).trans hlast
      exact hclose ((signedInteger_suffix afterMark.1).trans hafterMark)

theorem checkCall_stays (check? : Signatures) (name : String) {offset : Nat} (args : List Term)
    (h : IsPlace stop ls offset) :
    EndsIn (fun _ => True) (IsPlace stop ls) (checkCall check? name offset args) := by
  unfold checkCall
  split
  · exact .error h
  · split
    · exact .error h
    · exact .ok trivial

end

/-- What each rule of the grammar leaves of the lexemes `ls`, and where it fails. A call whose name is
`l` may fail there. -/
structure Stays (check? : Signatures) (stop : Nat) (ls : List Lexeme) : Prop where
  list : StaysIn stop ls (parseList check? stop ls)
  more : StaysIn stop ls (parseMore check? stop ls)
  expr : StaysIn stop ls (parseExpr check? stop ls)
  binary : ∀ least, StaysIn stop ls (parseBinary check? stop least ls)
  climb : ∀ least lhs, StaysIn stop ls (climb check? stop least lhs ls)
  unary : StaysIn stop ls (parseUnary check? stop ls)
  segments : StaysIn stop ls (parseSegments check? stop ls)
  call : ∀ name l, StaysIn stop (l :: ls) (parseCall check? stop name l.offset ls)
  dotted : StaysIn stop ls (parseDotted check? stop ls)
  bracket : StaysIn stop ls (parseBracket check? stop ls)

section

variable {check? : Signatures} {stop : Nat} {ls : List Lexeme}

variable (ih : ∀ rest, rest.length < ls.length → Stays check? stop rest)
include ih

theorem parseMore_stays : StaysIn stop ls (parseMore check? stop ls) := by
  unfold parseMore
  split
  · next rest =>
    refine (ih rest (Nat.lt_succ_self _)).expr.andThen (List.suffix_cons _ _) ?_
    intro t rest hlen hrest
    refine (ih rest (Nat.lt_succ_of_lt hlen)).more.andThen hrest ?_
    intro ts rest _ hrest
    exact .ok hrest
  · exact .ok List.suffix_rfl

theorem climb_stays (least : Nat) (lhs : Term) :
    StaysIn stop ls (climb check? stop least lhs ls) := by
  cases ls with
  | nil =>
    rw [climb]
    exact .ok List.suffix_rfl
  | cons l ls =>
    rw [climb]
    split
    · exact .ok List.suffix_rfl
    split
    · exact .ok List.suffix_rfl
    refine ((ih ls (Nat.lt_succ_self _)).binary _).andThen (List.suffix_cons _ _) ?_
    intro rhs rest hlen hrest
    refine ((ih rest (Nat.lt_succ_of_lt hlen)).climb _ _).andThen hrest ?_
    intro t rest _ hrest
    exact .ok hrest

theorem parseDotted_stays : StaysIn stop ls (parseDotted check? stop ls) := by
  unfold parseDotted
  split
  · exact .ok (List.suffix_cons _ _)
  · exact .ok (List.suffix_cons _ _)
  · exact .ok (List.suffix_cons _ _)
  · exact .ok (List.suffix_cons _ _)
  · next name o s rest =>
    refine ((ih rest (Nat.lt_succ_self _)).call name ⟨.function name, o, s⟩).andThen
      List.suffix_rfl ?_
    intro call rest _ hrest
    exact .ok hrest
  · exact .error (isPlace_offsetOf stop _)

theorem parseSegment_stays :
    EndsIn (fun found => ∀ x ∈ found, x.2.1 <:+ ls) (IsPlace stop ls)
      (parseSegment check? stop ls) := by
  unfold parseSegment
  split
  · next rest =>
    refine (ih rest (Nat.lt_succ_self _)).dotted.andThen (List.suffix_cons _ _) ?_
    intro s rest _ hrest
    exact .ok (by simpa using hrest)
  · split
    · next rest =>
      exact .ok (by simpa using suffix_cons_cons _ _ _)
    · next rest =>
      refine (ih rest (by simp)).bracket.andThen
        (suffix_cons_cons _ _ _) ?_
      intro s rest _ hrest
      exact .ok (by simpa using hrest)
    · next rest _ _ =>
      refine (ih _ (Nat.lt_succ_self _)).dotted.andThen (List.suffix_cons _ _) ?_
      intro s rest _ hrest
      exact .ok (by simpa using hrest)
  · exact .ok (by simp)
  · next rest =>
    refine (ih rest (Nat.lt_succ_self _)).bracket.andThen (List.suffix_cons _ _) ?_
    intro s rest _ hrest
    exact .ok (by simpa using hrest)
  · exact .ok (by simp)

theorem parseSegments_stays : StaysIn stop ls (parseSegments check? stop ls) := by
  unfold parseSegments
  split
  · exact .ok List.suffix_rfl
  split
  · exact .ok List.suffix_rfl
  refine (parseSegment_stays ih).bind ?_
  rintro (_ | ⟨s, rest, hlen⟩) hrest
  · exact .ok List.suffix_rfl
  · refine (ih rest hlen).segments.andThen (hrest _ rfl) ?_
    intro ss rest _ hrest
    exact .ok hrest

theorem parsePrimary_stays : StaysIn stop ls (parsePrimary check? stop ls) := by
  unfold parsePrimary
  split
  · exact .error (.inl rfl)
  · next name o s rest =>
    refine ((ih rest (Nat.lt_succ_self _)).call name ⟨.function name, o, s⟩).andThen
      List.suffix_rfl ?_
    intro call rest _ hrest
    exact .ok hrest
  · next rest =>
    refine (ih rest (Nat.lt_succ_self _)).list.andThen (List.suffix_cons _ _) ?_
    intro ts rest _ hrest
    refine (expect_stays .rightParen hrest).bind ?_
    intro r hr
    exact .ok hr
  · split
    · exact .ok (List.suffix_cons _ _)
    · refine (parseSegment_stays ih).bind ?_
      rintro (_ | ⟨s, rest⟩) hrest
      · exact .error (isPlace_offsetOf stop _)
      · exact .ok (hrest _ rfl)

theorem parsePostfix_stays : StaysIn stop ls (parsePostfix check? stop ls) := by
  rw [parsePostfix]
  refine (parsePrimary_stays ih).andThen List.suffix_rfl ?_
  intro t rest hlen hrest
  refine (ih rest hlen).segments.andThen hrest ?_
  intro ss rest _ hrest
  exact .ok hrest

theorem parsePower_stays : StaysIn stop ls (parsePower check? stop ls) := by
  rw [parsePower]
  refine (parsePostfix_stays ih).andThen List.suffix_rfl ?_
  intro base rest hlen hrest
  simp only
  split
  · next o b rest hlen =>
    refine (ih rest (Nat.lt_of_succ_lt hlen)).unary.andThen ((List.suffix_cons _ _).trans hrest) ?_
    intro exponent rest _ hrest
    exact .ok hrest
  · exact .ok hrest

theorem parseUnary_stays : StaysIn stop ls (parseUnary check? stop ls) := by
  unfold parseUnary
  split
  · next rest =>
    refine (ih rest (Nat.lt_succ_self _)).unary.andThen (List.suffix_cons _ _) ?_
    intro t rest _ hrest
    exact .ok hrest
  · next rest =>
    refine (ih rest (Nat.lt_succ_self _)).unary.andThen (List.suffix_cons _ _) ?_
    intro t rest _ hrest
    exact .ok hrest
  · exact parsePower_stays ih

theorem parseBinary_stays (least : Nat) : StaysIn stop ls (parseBinary check? stop least ls) := by
  rw [parseBinary]
  refine (parseUnary_stays ih).andThen List.suffix_rfl ?_
  intro lhs rest hlen hrest
  refine ((ih rest hlen).climb least lhs).andThen hrest ?_
  intro t rest _ hrest
  exact .ok hrest

theorem parseExpr_stays : StaysIn stop ls (parseExpr check? stop ls) := by
  rw [parseExpr]
  refine (parseBinary_stays ih 1).andThen List.suffix_rfl ?_
  intro test rest hlen hrest
  simp only
  split
  · next o b rest hlen =>
    rw [List.length_cons] at hlen
    refine (ih rest (by omega)).expr.andThen ((List.suffix_cons _ _).trans hrest) ?_
    intro yes r₁ hlen₁ hr₁
    refine (expect_stays .colon hr₁).bind ?_
    rintro ⟨r₂, hlen₂⟩ hr₂
    refine (ih r₂ (by omega)).expr.andThen hr₂ ?_
    intro no r₃ _ hr₃
    exact .ok hr₃
  · exact .ok hrest

theorem parseList_stays : StaysIn stop ls (parseList check? stop ls) := by
  rw [parseList]
  refine (parseExpr_stays ih).andThen List.suffix_rfl ?_
  intro t rest hlen hrest
  refine (ih rest hlen).more.andThen hrest ?_
  intro ts rest _ hrest
  exact .ok hrest

theorem parseCall_stays (name : String) (l : Lexeme) :
    StaysIn stop (l :: ls) (parseCall check? stop name l.offset ls) := by
  unfold parseCall
  split
  · refine (checkCall_stays check? name [] (.head stop l _)).bind ?_
    intro call _
    exact .ok (suffix_cons_cons _ _ _)
  · refine (parseList_stays ih).andThen (List.suffix_cons l ls) ?_
    intro args r₁ _ hr₁
    refine (expect_stays .rightParen hr₁).bind ?_
    intro r₂ hr₂
    refine (checkCall_stays check? name args (.head stop l ls)).bind ?_
    intro call _
    exact .ok hr₂

theorem parseBracket_stays : StaysIn stop ls (parseBracket check? stop ls) := by
  unfold parseBracket
  split
  · exact .ok (suffix_cons_cons _ _ _)
  · exact .ok (suffix_cons_cons _ _ _)
  · exact .ok (suffix_cons_cons _ _ _)
  · next rest =>
    refine (ih rest (Nat.lt_succ_self _)).expr.andThen (List.suffix_cons _ _) ?_
    intro t r₁ _ hr₁
    refine (expect_stays .rightBracket hr₁).bind ?_
    intro r₂ hr₂
    exact .ok hr₂
  · refine (slice?_stays ls).bind ?_
    rintro (_ | ⟨s, r₁, hlen₁⟩) hfound
    · refine (parseExpr_stays ih).andThen List.suffix_rfl ?_
      intro t r₁ _ hr₁
      refine (expect_stays .rightBracket hr₁).bind ?_
      intro r₂ hr₂
      exact .ok hr₂
    · refine (expect_stays .rightBracket (hfound _ rfl)).bind ?_
      intro r₂ hr₂
      exact .ok hr₂

end

theorem stays (check? : Signatures) (stop : Nat) (ls : List Lexeme) : Stays check? stop ls := by
  induction hn : ls.length using Nat.strongRecOn generalizing ls with
  | ind n ih =>
    have ih : ∀ rest : List Lexeme, rest.length < ls.length → Stays check? stop rest :=
      fun rest hrest => ih rest.length (hn ▸ hrest) rest rfl
    exact ⟨parseList_stays ih, parseMore_stays ih, parseExpr_stays ih, parseBinary_stays ih,
      climb_stays ih, parseUnary_stays ih, parseSegments_stays ih, parseCall_stays ih,
      parseDotted_stays ih, parseBracket_stays ih⟩

theorem parseAll_stays (check? : Signatures) (stop : Nat) {ls : List Lexeme} (hls : ls ≠ []) :
    EndsIn (fun _ => True) (IsPlace stop ls) (parseAll check? stop ls) := by
  unfold parseAll
  rw [if_neg (by simpa using hls)]
  refine (stays check? stop ls).list.andThen List.suffix_rfl ?_
  intro terms rest _ hrest
  cases rest with
  | nil => exact .ok trivial
  | cons l rest => exact .error ((IsPlace.head stop l rest).of_suffix hrest)

end Parser

/-! ### Sources -/

theorem exists_token_of_mem_ofTokens {spaced : Bool} {ts : List Token} {l : Lexeme}
    (h : l ∈ Lexeme.ofTokens spaced ts) : ∃ t ∈ ts, t.offset = l.offset := by
  induction ts generalizing spaced with
  | nil => cases h
  | cons t ts ih =>
    rw [Lexeme.ofTokens] at h
    split at h
    · obtain ⟨u, hu, hoffset⟩ := ih h
      exact ⟨u, List.mem_cons_of_mem t hu, hoffset⟩
    · rcases List.mem_cons.mp h with rfl | h
      · exact ⟨t, List.mem_cons_self, rfl⟩
      · obtain ⟨u, hu, hoffset⟩ := ih h
        exact ⟨u, List.mem_cons_of_mem t hu, hoffset⟩

def Token.IsPlace (cs : List Char) (ts : List Token) (place : Nat) : Prop :=
  (∃ t ∈ ts, t.offset = place) ∨ place = byteLength cs

theorem Token.IsPlace.isBoundary {cs : List Char} {ts : List Token} {place : Nat}
    (h : Token.IsPlace cs ts place) (hts : Lexer.Divided 0 cs ts) : IsBoundary 0 cs place := by
  rcases h with ⟨t, ht, rfl⟩ | rfl
  · obtain ⟨before, after, rfl⟩ := List.append_of_mem ht
    rw [hts.takes.2]
    refine ⟨_, ?_, rfl⟩
    rw [← Lexer.flatMap_text_of_divided hts, List.flatMap_append]
    exact List.prefix_append _ _
  · have hstop := IsBoundary.stop 0 cs
    rwa [Nat.zero_add] at hstop

/-- An expression without any lexeme is refused at its first byte, where a blank token starts if
there is one. -/
theorem Token.isPlace_zero {cs : List Char} {ts : List Token} (hts : Lexer.Divided 0 cs ts) :
    Token.IsPlace cs ts 0 := by
  cases hts with
  | nil => exact .inr rfl
  | cons => exact .inl ⟨_, List.mem_cons_self, rfl⟩

theorem parseAll_places (check? : Signatures) {cs : List Char} {ts : List Token}
    (hts : Lexer.Divided 0 cs ts) :
    EndsIn (fun _ => True) (Token.IsPlace cs ts)
      (Parser.parseAll check? (byteLength cs) (Lexeme.ofTokens false ts)) := by
  by_cases hls : Lexeme.ofTokens false ts = []
  · rw [hls]
    exact .error (Token.isPlace_zero hts)
  · refine (Parser.parseAll_stays check? _ hls).widen ?_
    rintro place (rfl | ⟨l, hl, rfl⟩)
    · exact .inr rfl
    · exact .inl (exists_token_of_mem_ofTokens hl)

theorem exists_error_of_mapError {ε ε' α : Type} {x : Except ε α} {f : ε → ε'} {e' : ε'}
    (h : x.mapError f = .error e') : ∃ e, x = .error e ∧ f e = e' := by
  cases x with
  | error e =>
    cases h
    exact ⟨e, rfl, rfl⟩
  | ok a => cases h

theorem exists_fault_of_parse {check? : Signatures} {source : String} {e : SyntaxError}
    (h : parse check? source = .error e) :
    ∃ fault, e = SyntaxError.ofFault source.toList fault ∧
      IsBoundary 0 source.toList fault.offset ∧
      ∀ ts, tokenize source = .ok ts → Token.IsPlace source.toList ts fault.offset := by
  unfold parse at h
  cases htokens : tokenize source with
  | error e' =>
    rw [htokens] at h
    cases h
    obtain ⟨fault, hfault, rfl⟩ := exists_error_of_mapError htokens
    exact ⟨fault, rfl, (Lexer.tokensFrom_places 0 _).offset_of_error hfault, nofun⟩
  | ok ts =>
    rw [htokens] at h
    have hts := Lexer.divided_of_tokensFrom (ok_of_mapError htokens)
    obtain ⟨fault, hfault, rfl⟩ := exists_error_of_mapError h
    have hplace := (parseAll_places check? hts).offset_of_error hfault
    refine ⟨fault, rfl, hplace.isBoundary hts, ?_⟩
    rintro _ ⟨⟩
    exact hplace

/-- A syntax error points into the source: its place lies between two characters of the source or at
one of its ends, what it shows is up to sixteen characters from there on, and if the source is divided
into tokens, the place is the start of one of them or the end of the source. -/
theorem parse_error_place {check? : Signatures} {source : String} {e : SyntaxError}
    (h : parse check? source = .error e) :
    e.offset ≤ source.utf8ByteSize ∧
    (∃ before after : List Char, source = String.ofList (before ++ after) ∧
      e.offset = (String.ofList before).utf8ByteSize ∧ e.near = String.ofList (after.take 16)) ∧
    ∀ ts, tokenize source = .ok ts →
      (∃ t ∈ ts, t.offset = e.offset) ∨ e.offset = source.utf8ByteSize := by
  obtain ⟨fault, rfl, ⟨before, ⟨after, hsource⟩, hoffset⟩, hplace⟩ := exists_fault_of_parse h
  rw [Nat.zero_add] at hoffset
  have hsize : source.utf8ByteSize = byteLength source.toList := by
    rw [← utf8ByteSize_ofList, String.ofList_toList]
  refine ⟨?_, ⟨before, after, ?_, ?_, ?_⟩, ?_⟩
  · rw [hsize, ← hsource, byteLength_append]
    exact hoffset.trans_le (Nat.le_add_right _ _)
  · rw [hsource, String.ofList_toList]
  · rw [utf8ByteSize_ofList]
    exact hoffset
  · rw [SyntaxError.ofFault, hoffset, ← hsource, fromByte?_append, Option.getD_some]
  · intro ts hts
    rw [hsize]
    exact hplace ts hts

/-- A slice whose step is zero is refused where it starts, after a letter of two bytes and a bracket. -/
theorem parse_error_place_slice :
    let source := "é[1::0]"
    let ts : List Token := [⟨.name "é", 0, "é"⟩, ⟨.symbol .leftBracket, 2, "["⟩, ⟨.integer 1, 3, "1"⟩,
      ⟨.symbol .colon, 4, ":"⟩, ⟨.symbol .colon, 5, ":"⟩, ⟨.integer 0, 6, "0"⟩,
      ⟨.symbol .rightBracket, 7, "]"⟩]
    let e : SyntaxError := ⟨.zeroStep, 3, "1::0]"⟩
    tokenize source = .ok ts ∧ parse (fun _ => none) source = .error e ∧
      3 ≤ source.utf8ByteSize ∧
      (∃ before after : List Char, source = String.ofList (before ++ after) ∧
        3 = (String.ofList before).utf8ByteSize ∧ "1::0]" = String.ofList (after.take 16)) ∧
      ((∃ t ∈ ts, t.offset = 3) ∨ 3 = source.utf8ByteSize) := by
  intro source ts e
  have hts : tokenize source = .ok ts := by decide +kernel
  have h : parse (fun _ => none) source = .error e := by decide +kernel
  obtain ⟨hle, hnear, hplace⟩ := parse_error_place h
  exact ⟨hts, h, hle, hnear, hplace ts hts⟩

-- the text of an escape is cut in bytes, and a letter of two bytes stands across its end
example : parse (fun _ => none) "'é\\u000é'" = .error ⟨.invalidEscape, 5, "000é'"⟩ := by
  decide +kernel

end PathQuery
