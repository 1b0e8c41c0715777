import Mathlib
import PathQuery.Expression.Parser
import PathQuery.Proofs.Text.Classes

/-!
# Scanning a text piece by piece

`Lexer.Scans` says into which lexemes a text is scanned, their places left out. It is built from the
end of the text: each piece is scanned in front of the characters that really follow it, so a piece
that would swallow some of them cannot be added.
-/

namespace PathQuery

/-- A lexeme without its place: what it is, and whether blanks stand before it. -/
abbrev Sign := TokenKind × Bool

def Lexeme.sign (l : Lexeme) : Sign := (l.kind, l.spaced)

namespace Lexer

theorem scan_blank (offset : Nat) {c : Char} (cs : List Char) (hc : isBlank c = true) :
    scan offset c cs = .ok (.whitespace, (cs.takeWhile isBlank).length) := by
  simp only [scan, hc, if_true]

theorem tokensFrom_cons {offset extra : Nat} {c : Char} {cs : List Char} {kind : TokenKind}
    {ts : List Token} (hscan : scan offset c cs = .ok (kind, extra))
    (hrest : tokensFrom (offset + byteLength (c :: cs.take extra)) (cs.drop extra) = .ok ts) :
    tokensFrom offset (c :: cs) =
      .ok (⟨kind, offset, String.ofList (c :: cs.take extra)⟩ :: ts) := by
  rw [tokensFrom, hscan]
  simp only [bind, Except.bind]
  rw [hrest]
  rfl

/-! ### The judgement -/

/-- The text `cs`, with blanks before it or not, is scanned into lexemes with the signs `ks`. -/
inductive Scans : Bool → List Char → List Sign → Prop where
  | nil {spaced : Bool} : Scans spaced [] []
  | blank {spaced : Bool} {c : Char} {cs : List Char} {ks : List Sign}
      (hc : isBlank c = true) (hrest : Scans true cs ks) : Scans spaced (c :: cs) ks
  | token {spaced : Bool} {c : Char} {cs : List Char} {kind : TokenKind} {extra : Nat}
      {ks : List Sign} (hscan : ∀ offset, scan offset c cs = .ok (kind, extra))
      (hkind : kind ≠ .whitespace) (hrest : Scans false (cs.drop extra) ks) :
      Scans spaced (c :: cs) ((kind, spaced) :: ks)

namespace Scans

variable {spaced : Bool} {ks : List Sign}

theorem dropWhile_isBlank {cs : List Char} (h : Scans true cs ks) :
    Scans true (cs.dropWhile isBlank) ks := by
  induction cs with
  | nil => exact h
  | cons c cs ih =>
    cases h with
    | blank hc hrest =>
      rw [List.dropWhile_cons_of_pos hc]
      exact ih hrest
    | token hscan hkind hrest =>
      have hc : ¬ isBlank c = true := by
        intro hc
        have hk := (hscan 0).symm.trans (scan_blank 0 cs hc)
        simp only [Except.ok.injEq, Prod.mk.injEq] at hk
        exact hkind hk.1
      rw [List.dropWhile_cons_of_neg hc]
      exact .token hscan hkind hrest

theorem tokens {cs : List Char} (h : Scans spaced cs ks) (offset : Nat) :
    ∃ ts, tokensFrom offset cs = .ok ts ∧ (Lexeme.ofTokens spaced ts).map Lexeme.sign = ks := by
  induction hn : cs.length using Nat.strongRecOn generalizing cs spaced ks offset with
  | ind n ih =>
    cases h with
    | nil => exact ⟨[], by rw [tokensFrom], rfl⟩
    | @blank _ c cs _ hc hrest =>
      -- one token covers all blanks at hand, so the rest is what stands after the last of them
      have hdrop : cs.drop (cs.takeWhile isBlank).length = cs.dropWhile isBlank := by
        have hcs := List.takeWhile_append_dropWhile (p := isBlank) (l := cs)
        calc cs.drop (cs.takeWhile isBlank).length
            = (cs.takeWhile isBlank ++ cs.dropWhile isBlank).drop
                (cs.takeWhile isBlank).length := by rw [hcs]
          _ = cs.dropWhile isBlank := List.drop_left
      have hlen : (cs.dropWhile isBlank).length ≤ cs.length :=
        (List.dropWhile_sublist isBlank).length_le
      obtain ⟨ts, hts, hks⟩ := ih (cs.dropWhile isBlank).length
        (by simp only [List.length_cons] at hn; omega) hrest.dropWhile_isBlank
        (offset + byteLength (c :: cs.take (cs.takeWhile isBlank).length)) rfl
      refine ⟨_, tokensFrom_cons (scan_blank offset cs hc) (hdrop ▸ hts), ?_⟩
      simp only [Lexeme.ofTokens, if_true, hks]
    | @token _ c cs kind extra ks hscan hkind hrest =>
      obtain ⟨ts, hts, hks⟩ := ih (cs.drop extra).length
        (by simp only [List.length_cons, List.length_drop] at hn ⊢; omega) hrest
        (offset + byteLength (c :: cs.take extra)) rfl
      refine ⟨_, tokensFrom_cons (hscan offset) hts, ?_⟩
      simp only [Lexeme.ofTokens, if_neg hkind, List.map_cons, hks]
      rfl

theorem piece {c : Char} {tail rest : List Char} {kind : TokenKind}
    (hscan : ∀ offset, scan offset c (tail ++ rest) = .ok (kind, tail.length))
    (hkind : kind ≠ .whitespace) (hrest : Scans false rest ks) :
    Scans spaced (c :: (tail ++ rest)) ((kind, spaced) :: ks) := by
  refine .token hscan hkind ?_
  rw [List.drop_left]
  exact hrest

end Scans

end Lexer

/-! ### Symbols -/

/-- The characters that would make a longer symbol, or another one, of this symbol. -/
def Symbol.longer : Symbol → List Char
  | .dot => ['.']
  | .dotDot | .star => ['*']
  | .bang | .equal | .notEqual | .less | .greater => ['=']
  | .bitAnd => ['&']
  | .bitOr => ['|']
  | _ => []

namespace Lexer

theorem symbol?_text (s : Symbol) {rest : List Char} (hrest : ∀ d ∈ rest.head?, d ∉ s.longer) :
    symbol? (s.text.toList ++ rest) = some (s.text.toList, s) := by
  cases rest with
  | nil => cases s <;> rfl
  | cons d ds =>
    have hd := hrest d rfl
    cases s
    all_goals first
      | rfl
      | (have hne := Ne.symm (List.ne_of_not_mem_cons hd)
         simp [symbol?, Symbol.spellings, Symbol.text, List.isPrefixOf, hne])

/-- Whether a character begins neither a blank, a string, a number nor a name. -/
def beginsSymbol (c : Char) : Bool :=
  !isBlank c && c != '"' && c != '\'' && !c.isDigit && !isNameStart c

theorem beginsSymbol_text (s : Symbol) : s.text.toList.head?.all beginsSymbol = true := by
  cases s <;> decide

theorem scan_beginsSymbol (offset : Nat) {c : Char} (cs : List Char) (hc : beginsSymbol c = true) :
    scan offset c cs =
      match symbol? (c :: cs) with
      | some (spelling, s) => .ok (.symbol s, spelling.length - 1)
      | none => .error ⟨.unexpectedCharacter c, offset⟩ := by
  simp [beginsSymbol, and_assoc] at hc
  obtain ⟨hblank, hdouble, hsingle, hdigit, hname⟩ := hc
  cases hsymbol : symbol? (c :: cs) <;>
    simp only [scan, hblank, hdouble, hsingle, hdigit, hname, hsymbol, or_self, if_false,
      Bool.false_eq_true]

theorem scan_symbol (offset : Nat) (s : Symbol) {c : Char} {tail rest : List Char}
    (htext : s.text.toList = c :: tail) (hrest : ∀ d ∈ rest.head?, d ∉ s.longer) :
    scan offset c (tail ++ rest) = .ok (.symbol s, tail.length) := by
  have hs := symbol?_text s hrest
  have hc := beginsSymbol_text s
  rw [htext, List.cons_append] at hs
  rw [htext, List.head?_cons, Option.all_some] at hc
  rw [scan_beginsSymbol offset _ hc, hs]
  rfl

/-! ### Names -/

theorem isBlank_eq_false_of_isNameStart {c : Char} (h : isNameStart c = true) :
    isBlank c = false := by
  cases hb : isBlank c with
  | false => rfl
  | true =>
    have ha := isAlphabetic_eq_false_of_isBlank hb
    simp [isNameStart, ha] at h
    rcases h with h | h <;> subst h <;> simp [isBlank] at hb

theorem isDigit_eq_false_of_isNameStart {c : Char} (h : isNameStart c = true) :
    c.isDigit = false := by
  cases hd : c.isDigit with
  | false => rfl
  | true =>
    rw [Char.isDigit_iff_toNat] at hd
    have hwide : c.toNat < 128 := by
      have : '9'.toNat = 57 := rfl
      omega
    have ha : isAlphabetic c = false := by
      simp only [isAlphabetic, if_pos hwide]
      simp [Char.isAlpha, Char.isUpper, Char.isLower, UInt32.le_iff_toNat_le,
        ← Char.toNat_val] at hd ⊢
      omega
    simp [isNameStart, ha] at h
    rcases h with h | h <;> subst h <;> simp at hd

theorem scan_nameStart (offset : Nat) {c : Char} (cs : List Char) (hc : isNameStart c = true) :
    scan offset c cs = (nameBody offset (c :: cs)).map fun (name, count) =>
      if cs[count - 1]? = some '(' then (.function (String.ofList name), count)
      else (.name (String.ofList name), count - 1) := by
  have hquote : ¬ (c = '"' ∨ c = '\'') := by
    rintro (h | h) <;> subst h <;> simp [isNameStart, isAlphabetic] at hc
  simp only [scan, isBlank_eq_false_of_isNameStart hc, hquote, isDigit_eq_false_of_isNameStart hc,
    hc, if_true, if_false, Bool.false_eq_true]
  cases nameBody offset (c :: cs) with
  | error e => rfl
  | ok r =>
    simp only [bind, Except.bind, Except.map]
    split <;> rfl

theorem nameBody_append {cs rest : List Char} (hcs : ∀ c ∈ cs, c ≠ '\\' ∧ isNameChar c = true)
    (hrest : ∀ d ∈ rest.head?, isNameChar d = false) (offset : Nat) :
    nameBody offset (cs ++ rest) = .ok (cs, cs.length) := by
  induction cs generalizing offset with
  | nil =>
    cases rest with
    | nil => rfl
    | cons d ds =>
      have hd := hrest d rfl
      have hslash : d ≠ '\\' := by
        intro hslash
        subst hslash
        simp [isNameChar] at hd
      rw [List.nil_append, nameBody, hd]
      · rfl
      · exact fun h _ => hslash h
      · exact fun _ _ h _ => hslash h
  | cons c cs ih =>
    obtain ⟨hslash, hc⟩ := hcs c List.mem_cons_self
    have htail := ih (fun d hd => hcs d (List.mem_cons_of_mem c hd)) (offset + c.utf8Size)
    rw [List.cons_append, nameBody, hc, htail]
    · rfl
    · exact fun h _ => hslash h
    · exact fun _ _ h _ => hslash h

/-- The characters of a name that needs no backslash. -/
def isNameText : List Char → Bool
  | [] => false
  | c :: cs => c != '\\' && isNameStart c && cs.all fun d => d != '\\' && isNameChar d

theorem isNameChar_of_isNameStart {c : Char} (h : isNameStart c = true) : isNameChar c = true := by
  simp only [isNameStart, isNameChar, Bool.or_eq_true, decide_eq_true_eq] at h ⊢
  rcases h with (h | h) | h <;> simp [h]

theorem mem_of_isNameText {cs : List Char} (h : isNameText cs = true) :
    ∀ c ∈ cs, c ≠ '\\' ∧ isNameChar c = true := by
  cases cs with
  | nil => simp [isNameText] at h
  | cons c cs =>
    simp only [isNameText, Bool.and_eq_true, bne_iff_ne, List.all_eq_true] at h
    intro d hd
    rcases List.mem_cons.mp hd with hd | hd
    · rw [hd]
      exact ⟨h.1.1, isNameChar_of_isNameStart h.1.2⟩
    · exact h.2 d hd

theorem scan_nameText {c : Char} {tail rest : List Char} (h : isNameText (c :: tail) = true)
    (hrest : ∀ d ∈ rest.head?, isNameChar d = false) (offset : Nat) :
    scan offset c (tail ++ rest) =
      if rest.head? = some '(' then .ok (.function (String.ofList (c :: tail)), tail.length + 1)
      else .ok (.name (String.ofList (c :: tail)), tail.length) := by
  have hstart : isNameStart c = true := by
    simp only [isNameText, Bool.and_eq_true] at h
    exact h.1.2
  have hbody : nameBody offset (c :: (tail ++ rest)) = .ok (c :: tail, tail.length + 1) :=
    nameBody_append (mem_of_isNameText h) hrest offset
  have hnext : (tail ++ rest)[tail.length]? = rest.head? := by
    rw [List.getElem?_append_right (Nat.le_refl _), Nat.sub_self, List.head?_eq_getElem?]
  rw [scan_nameStart offset _ hstart, hbody]
  simp only [Except.map, Nat.add_sub_cancel, hnext]
  split <;> rfl

/-! ### Numbers -/

theorem isBlank_eq_false_of_isDigit {c : Char} (h : c.isDigit = true) : isBlank c = false := by
  have hrange := Char.isDigit_iff_toNat.mp h
  have h0 : '0'.toNat = 48 := rfl
  have h9 : '9'.toNat = 57 := rfl
  have hspace : c ≠ ' ' := by
    rintro rfl
    simp at h
  simp only [isBlank, if_pos (show c.toNat < 128 by omega)]
  simp [hspace]
  omega

theorem scan_digit (offset : Nat) {c : Char} (cs : List Char) (hc : c.isDigit = true) :
    scan offset c cs = .ok ((number (c :: cs)).1, (number (c :: cs)).2 - 1) := by
  have hquote : ¬ (c = '"' ∨ c = '\'') := by
    rintro (h | h) <;> subst h <;> simp at hc
  simp only [scan, isBlank_eq_false_of_isDigit hc, hquote, hc, if_true, if_false,
    Bool.false_eq_true]

/-! ### Strings -/

theorem stringBody_quote (start offset : Nat) (rest : List Char) :
    stringBody '"' start offset ('"' :: rest) = .ok ([], 1) := by
  rw [stringBody]
  · rfl
  · simp

theorem stringBody_escape {e : Char} (he : e ≠ 'u') (start offset : Nat) {rest text : List Char}
    {count : Nat}
    (h : stringBody '"' start (offset + 1 + e.utf8Size) rest = .ok (text, count)) :
    stringBody '"' start offset ('\\' :: e :: rest) = .ok (plainEscape e :: text, count + 2) := by
  rw [stringBody]
  · rw [h]
    rfl
  · simp [he]
  · simp [he]

theorem stringBody_plain {c : Char} (hquote : c ≠ '"') (hslash : c ≠ '\\') (start offset : Nat)
    {rest text : List Char} {count : Nat}
    (h : stringBody '"' start (offset + c.utf8Size) rest = .ok (text, count)) :
    stringBody '"' start offset (c :: rest) = .ok (c :: text, count + 1) := by
  rw [stringBody]
  · rw [h]
    simp [hquote, bind, Except.bind]
    rfl
  · exact hslash

theorem stringBody_stringChar (c : Char) (start : Nat) {rest text : List Char} {count : Nat}
    (h : ∀ offset, stringBody '"' start offset rest = .ok (text, count)) (offset : Nat) :
    stringBody '"' start offset (stringChar c ++ rest) =
      .ok (c :: text, (stringChar c).length + count) := by
  have hescape (e : Char) (he : e ≠ 'u') :
      stringBody '"' start offset (['\\', e] ++ rest) = .ok (plainEscape e :: text, 2 + count) := by
    rw [Nat.add_comm]
    exact stringBody_escape he start offset (h _)
  unfold stringChar
  split
  · next hc => subst hc; exact hescape '"' (by decide)
  split
  · next hc => subst hc; exact hescape '\\' (by decide)
  split
  · next hc => subst hc; exact hescape 'n' (by decide)
  split
  · next hc => subst hc; exact hescape 'r' (by decide)
  split
  · next hc => subst hc; exact hescape 't' (by decide)
  · next hquote hslash _ _ _ =>
    rw [Nat.add_comm]
    exact stringBody_plain hquote hslash start offset (h _)

theorem stringBody_chars (cs : List Char) (start : Nat) (rest : List Char) (offset : Nat) :
    stringBody '"' start offset (cs.flatMap stringChar ++ '"' :: rest) =
      .ok (cs, (cs.flatMap stringChar).length + 1) := by
  induction cs generalizing offset with
  | nil => exact stringBody_quote start offset rest
  | cons c cs ih =>
    rw [List.flatMap_cons, List.append_assoc,
      stringBody_stringChar c start (fun o => ih o) offset, List.length_append]
    rfl

end Lexer
end PathQuery
