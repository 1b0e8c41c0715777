import PathQuery.Proofs.Expression.Produced

/-!
# String literals

What stands between the quotes of a string literal is a sequence of characters and escapes, and the
scanner reads just the sequences of a small grammar. An escape by code is meant to have four
hexadecimal digits. The scanner also takes a plus sign in place of the first of them; the grammar
keeps those escapes apart.
-/

namespace PathQuery
namespace Lexer

/-! ### The grammar -/

/-- The letters that stand for a control character after a backslash. -/
def namedEscapes : List (Char × Char) := [('n', '\n'), ('t', '\t'), ('r', '\r')]

/-- What stands between quotes, with the characters it stands for, and whether some escape by code has
a plus sign in place of its first digit. -/
inductive Spells (quote : Char) : Bool → List Char → List Char → Prop where
  | nil : Spells quote false [] []
  | plain {signed : Bool} {c : Char} {body text : List Char} (hquote : c ≠ quote) (hslash : c ≠ '\\')
      (hrest : Spells quote signed body text) : Spells quote signed (c :: body) (c :: text)
  | named {signed : Bool} {c v : Char} {body text : List Char} (hc : (c, v) ∈ namedEscapes)
      (hrest : Spells quote signed body text) : Spells quote signed ('\\' :: c :: body) (v :: text)
  /-- Four hexadecimal digits, which give a character by its code. -/
  | code {signed : Bool} {a b c d v : Char} {w x y z : Nat} {body text : List Char}
      (ha : hexValue? a = some w) (hb : hexValue? b = some x) (hc : hexValue? c = some y)
      (hd : hexValue? d = some z) (hv : v.toNat = 4096 * w + 256 * x + 16 * y + z)
      (hrest : Spells quote signed body text) :
      Spells quote signed ('\\' :: 'u' :: a :: b :: c :: d :: body) (v :: text)
  /-- Any other character, which stands for itself. -/
  | itself {signed : Bool} {c : Char} {body text : List Char} (hc : c ∉ ['n', 't', 'r', 'u'])
      (hrest : Spells quote signed body text) : Spells quote signed ('\\' :: c :: body) (c :: text)
  /-- A plus sign and three hexadecimal digits. -/
  | signedCode {signed : Bool} {b c d v : Char} {x y z : Nat} {body text : List Char}
      (hb : hexValue? b = some x) (hc : hexValue? c = some y) (hd : hexValue? d = some z)
      (hv : v.toNat = 256 * x + 16 * y + z) (hrest : Spells quote signed body text) :
      Spells quote true ('\\' :: 'u' :: '+' :: b :: c :: d :: body) (v :: text)

/-! ### Escapes -/

theorem mem_namedEscapes {c v : Char} (h : (c, v) ∈ namedEscapes) :
    c ≠ 'u' ∧ plainEscape c = v := by
  simp only [namedEscapes, List.mem_cons, List.not_mem_nil, or_false, Prod.mk.injEq] at h
  rcases h with ⟨rfl, rfl⟩ | ⟨rfl, rfl⟩ | ⟨rfl, rfl⟩ <;> exact ⟨by decide, rfl⟩

theorem plainEscape_of_notMem {c : Char} (h : c ∉ ['n', 't', 'r', 'u']) :
    c ≠ 'u' ∧ plainEscape c = c := by
  simp only [List.mem_cons, List.not_mem_nil, or_false, not_or] at h
  obtain ⟨hn, ht, hr, hu⟩ := h
  rw [plainEscape, if_neg hn, if_neg ht, if_neg hr]
  exact ⟨hu, rfl⟩

theorem Spells.escape {quote : Char} {signed : Bool} {c : Char} {body text : List Char}
    (hu : c ≠ 'u') (hrest : Spells quote signed body text) :
    Spells quote signed ('\\' :: c :: body) (plainEscape c :: text) := by
  unfold plainEscape
  split
  · next hc => subst hc; exact .named (by simp [namedEscapes]) hrest
  split
  · next hc => subst hc; exact .named (by simp [namedEscapes]) hrest
  split
  · next hc => subst hc; exact .named (by simp [namedEscapes]) hrest
  · next hn ht hr => exact .itself (by simp [hn, ht, hr, hu]) hrest

theorem ofNat_eq_iff {n : Nat} {v : Char} :
    (n.isValidChar ∧ Char.ofNat n = v) ↔ n = v.toNat := by
  constructor
  · rintro ⟨hn, rfl⟩
    rw [Char.toNat_ofNat, if_pos hn]
  · rintro rfl
    exact ⟨v.valid, Char.ofNat_toNat v⟩

theorem hexNumber?_three {b c d : Char} {n : Nat} :
    hexNumber? [b, c, d] = some n ↔
      ∃ x y z, hexValue? b = some x ∧ hexValue? c = some y ∧ hexValue? d = some z ∧
        n = 256 * x + 16 * y + z := by
  cases hb : hexValue? b <;> cases hc : hexValue? c <;> cases hd : hexValue? d <;>
    simp [hexNumber?, hb, hc, hd]
  omega

theorem hexNumber?_four {a b c d : Char} {n : Nat} :
    hexNumber? [a, b, c, d] = some n ↔
      ∃ w x y z, hexValue? a = some w ∧ hexValue? b = some x ∧ hexValue? c = some y ∧
        hexValue? d = some z ∧ n = 4096 * w + 256 * x + 16 * y + z := by
  cases ha : hexValue? a <;> cases hb : hexValue? b <;> cases hc : hexValue? c <;>
    cases hd : hexValue? d <;> simp [hexNumber?, ha, hb, hc, hd]
  omega

theorem escapedChar?_plus {ds : List Char} {v : Char} :
    escapedChar? ('+' :: ds) = some v ↔ hexNumber? ds = some v.toNat := by
  simp [escapedChar?, Option.bind_eq_some_iff, ofNat_eq_iff]

theorem escapedChar?_digits {a : Char} (ha : a ≠ '+') {ds : List Char} {v : Char} :
    escapedChar? (a :: ds) = some v ↔ hexNumber? (a :: ds) = some v.toNat := by
  simp [escapedChar?, ha, Option.bind_eq_some_iff, ofNat_eq_iff]

theorem ne_plus_of_hexValue? {a : Char} {w : Nat} (h : hexValue? a = some w) : a ≠ '+' := by
  rintro rfl
  cases h

/-! ### Reading -/

section

variable {quote : Char} {start offset : Nat}

theorem stringBody_of_spells (hquote : quote ≠ '\\') {signed : Bool} {body text : List Char}
    (h : Spells quote signed body text) (rest : List Char) :
    stringBody quote start offset (body ++ quote :: rest) = .ok (text, body.length + 1) := by
  induction h generalizing offset with
  | nil =>
    rw [List.nil_append, stringBody]
    · simp
    · exact hquote
  | plain hne hslash hrest ih =>
    rw [List.cons_append, stringBody]
    · rw [if_neg hne, ih]
      rfl
    · exact hslash
  | named hc hrest ih =>
    obtain ⟨hu, hv⟩ := mem_namedEscapes hc
    rw [List.cons_append, List.cons_append, stringBody]
    · rw [ih, hv]
      rfl
    · simp [hu]
    · simp [hu]
  | code ha hb hc hd hv hrest ih =>
    have hvalue := (escapedChar?_digits (ne_plus_of_hexValue? ha)).mpr
      (hexNumber?_four.mpr ⟨_, _, _, _, ha, hb, hc, hd, hv⟩)
    simp only [List.cons_append]
    rw [stringBody, hvalue]
    simp only [ih]
    rfl
  | itself hc hrest ih =>
    obtain ⟨hu, hv⟩ := plainEscape_of_notMem hc
    rw [List.cons_append, List.cons_append, stringBody]
    · rw [ih, hv]
      rfl
    · simp [hu]
    · simp [hu]
  | signedCode hb hc hd hv hrest ih =>
    have hvalue := escapedChar?_plus.mpr (hexNumber?_three.mpr ⟨_, _, _, hb, hc, hd, hv⟩)
    simp only [List.cons_append]
    rw [stringBody, hvalue]
    simp only [ih]
    rfl

theorem exists_spells_of_stringBody {cs text : List Char} {count : Nat}
    (h : stringBody quote start offset cs = .ok (text, count)) :
    ∃ signed body rest, Spells quote signed body text ∧ cs = body ++ quote :: rest ∧
      count = body.length + 1 := by
  fun_induction stringBody quote start offset cs generalizing text count with
  | case1 => cases h
  | case2 => cases h
  | case3 => cases h
  | case4 offset a b c d rest v hvalue ih =>
    obtain ⟨⟨text', count'⟩, hrest, h⟩ := ok_of_bind h
    cases h
    obtain ⟨signed, body, rest', hbody, rfl, rfl⟩ := ih hrest
    by_cases ha : a = '+'
    · subst ha
      obtain ⟨x, y, z, hb, hc, hd, hv⟩ := hexNumber?_three.mp (escapedChar?_plus.mp hvalue)
      exact ⟨true, _, rest', .signedCode hb hc hd hv hbody, rfl, rfl⟩
    · obtain ⟨w, x, y, z, ha, hb, hc, hd, hv⟩ :=
        hexNumber?_four.mp ((escapedChar?_digits ha).mp hvalue)
      exact ⟨signed, _, rest', .code ha hb hc hd hv hbody, rfl, rfl⟩
  | case5 => cases h
  | case6 offset e rest hcode hu ih =>
    obtain ⟨⟨text', count'⟩, hrest, h⟩ := ok_of_bind h
    cases h
    obtain ⟨signed, body, rest', hbody, rfl, rfl⟩ := ih hrest
    exact ⟨signed, _, rest', hbody.escape hu, rfl, rfl⟩
  | case7 offset cs hslash =>
    cases h
    exact ⟨false, [], cs, .nil, rfl, rfl⟩
  | case8 offset c cs hslash hne ih =>
    obtain ⟨⟨text', count'⟩, hrest, h⟩ := ok_of_bind h
    cases h
    obtain ⟨signed, body, rest', hbody, rfl, rfl⟩ := ih hrest
    exact ⟨signed, _, rest', .plain hne hslash hbody, rfl, rfl⟩

end

/-! ### Literals -/

/-- Whether a body has an escape with a sign does not depend on how it is read. -/
theorem Spells.signed_eq {quote : Char} {signed signed' : Bool} {body text text' : List Char}
    (h : Spells quote signed body text) (h' : Spells quote signed' body text') :
    signed = signed' := by
  induction h generalizing signed' text' with
  | nil =>
    cases h'
    rfl
  | plain hquote hslash hrest ih =>
    cases h' with
    | plain _ _ hrest' => exact ih hrest'
    | _ => exact absurd rfl hslash
  | named hc hrest ih =>
    cases h' with
    | plain _ hslash => exact absurd rfl hslash
    | named _ hrest' => exact ih hrest'
    | code => exact absurd rfl (mem_namedEscapes hc).1
    | itself _ hrest' => exact ih hrest'
    | signedCode => exact absurd rfl (mem_namedEscapes hc).1
  | code ha hb hc hd hv hrest ih =>
    cases h' with
    | plain _ hslash => exact absurd rfl hslash
    | named hc => exact absurd rfl (mem_namedEscapes hc).1
    | code _ _ _ _ _ hrest' => exact ih hrest'
    | itself hc => exact absurd rfl (plainEscape_of_notMem hc).1
    | signedCode => exact absurd rfl (ne_plus_of_hexValue? ha)
  | itself hc hrest ih =>
    cases h' with
    | plain _ hslash => exact absurd rfl hslash
    | named _ hrest' => exact ih hrest'
    | code => exact absurd rfl (plainEscape_of_notMem hc).1
    | itself _ hrest' => exact ih hrest'
    | signedCode => exact absurd rfl (plainEscape_of_notMem hc).1
  | signedCode hb hc hd hv hrest ih =>
    cases h' with
    | plain _ hslash => exact absurd rfl hslash
    | named hc => exact absurd rfl (mem_namedEscapes hc).1
    | code ha => exact absurd rfl (ne_plus_of_hexValue? ha)
    | itself hc => exact absurd rfl (plainEscape_of_notMem hc).1
    | signedCode => rfl

def quotes : List Char := ['"', '\'']

section

variable {quote : Char} (hquote : quote ∈ quotes)
include hquote

theorem ne_slash_of_mem_quotes : quote ≠ '\\' := by
  rintro rfl
  simp [quotes] at hquote

theorem scan_quote (offset : Nat) (cs : List Char) :
    scan offset quote cs =
      (stringBody quote offset (offset + 1) cs).map fun (text, count) =>
        (.string (String.ofList text), count) := by
  have hblank : isBlank quote = false := by
    simp only [quotes, List.mem_cons, List.not_mem_nil, or_false] at hquote
    rcases hquote with rfl | rfl <;> rfl
  have hor : quote = '"' ∨ quote = '\'' := by
    simpa [quotes] using hquote
  simp only [scan, hblank, Bool.false_eq_true, if_false, if_pos hor]
  cases stringBody quote offset (offset + 1) cs <;> rfl

theorem scan_quote_eq_ok (offset : Nat) {cs : List Char} {kind : TokenKind} {extra : Nat} :
    scan offset quote cs = .ok (kind, extra) ↔
      ∃ signed body text rest, Spells quote signed body text ∧ cs = body ++ quote :: rest ∧
        kind = .string (String.ofList text) ∧ extra = body.length + 1 := by
  rw [scan_quote hquote]
  constructor
  · intro h
    cases hbody : stringBody quote offset (offset + 1) cs with
    | error e =>
      rw [hbody] at h
      cases h
    | ok r =>
      obtain ⟨text, count⟩ := r
      rw [hbody] at h
      cases h
      obtain ⟨signed, body, rest, hspells, hcs, hcount⟩ := exists_spells_of_stringBody hbody
      exact ⟨signed, body, text, rest, hspells, hcs, rfl, hcount⟩
  · rintro ⟨signed, body, text, rest, hspells, rfl, rfl, rfl⟩
    rw [stringBody_of_spells (ne_slash_of_mem_quotes hquote) hspells]
    rfl

/-- A text has one body behind its first quote at most. -/
theorem Spells.body_eq {cs body text rest body' text' rest' : List Char} {signed signed' : Bool}
    (h : Spells quote signed body text) (hcs : cs = body ++ quote :: rest)
    (h' : Spells quote signed' body' text') (hcs' : cs = body' ++ quote :: rest') : body = body' := by
  have hscan := (scan_quote_eq_ok hquote 0).mpr ⟨signed, body, text, rest, h, hcs, rfl, rfl⟩
  have hscan' := (scan_quote_eq_ok hquote 0).mpr ⟨signed', body', text', rest', h', hcs', rfl, rfl⟩
  rw [hscan] at hscan'
  simp only [Except.ok.injEq, Prod.mk.injEq] at hscan'
  exact (List.append_inj (hcs.symm.trans hcs') (by omega)).1

end

end Lexer

open Lexer

/-- String literals follow their grammar but for escapes with a sign: at a quote the scanner reads a
string just if a body that is spelled out and the same quote follow, its value is what the body
spells, and it ends at that quote. In every other case the source is refused. What is read with a
sign in an escape could not be read without. -/
theorem scan_literal (offset : Nat) {quote : Char} (hquote : quote ∈ quotes) (cs : List Char) :
    (∀ kind extra, scan offset quote cs = .ok (kind, extra) ↔
      ∃ signed body text rest, Spells quote signed body text ∧ cs = body ++ quote :: rest ∧
        kind = .string (String.ofList text) ∧ extra = body.length + 1) ∧
    ((∀ signed body text rest, Spells quote signed body text → cs ≠ body ++ quote :: rest) →
      ∃ e, tokenize (String.ofList (quote :: cs)) = .error e) ∧
    ∀ body text rest, Spells quote true body text → cs = body ++ quote :: rest →
      ∀ body' text' rest', Spells quote false body' text' → cs ≠ body' ++ quote :: rest' := by
  refine ⟨fun kind extra => scan_quote_eq_ok hquote offset, fun hnone => ?_, ?_⟩
  · cases hscan : scan 0 quote cs with
    | ok r =>
      obtain ⟨signed, body, text, rest, hspells, hcs, _⟩ :=
        (scan_quote_eq_ok hquote 0).mp (hscan : scan 0 quote cs = .ok (r.1, r.2))
      exact absurd hcs (hnone signed body text rest hspells)
    | error e =>
      refine ⟨SyntaxError.ofFault (quote :: cs) e, ?_⟩
      rw [tokenize, String.toList_ofList, tokensFrom, hscan]
      rfl
  · intro body text rest h hcs body' text' rest' h' hcs'
    obtain rfl := h.body_eq hquote hcs h' hcs'
    cases h.signed_eq h'

/-- A plus sign and `041` give the letter `A`, which four digits would not. -/
theorem scan_literal_sign :
    let cs := ['\\', 'u', '+', '0', '4', '1', '"']
    Spells '"' true ['\\', 'u', '+', '0', '4', '1'] ['A'] ∧
      scan 0 '"' cs = .ok (.string "A", 7) ∧
      ∀ body text rest, Spells '"' false body text → cs ≠ body ++ '"' :: rest := by
  intro cs
  have hspells : Spells '"' true ['\\', 'u', '+', '0', '4', '1'] ['A'] :=
    .signedCode rfl rfl rfl rfl .nil
  have hquote : '"' ∈ quotes := List.mem_cons_self
  obtain ⟨hread, _, hsigned⟩ := scan_literal 0 hquote cs
  exact ⟨hspells, (hread _ _).mpr ⟨true, _, _, [], hspells, rfl, rfl, rfl⟩,
    hsigned _ _ [] hspells rfl⟩

end PathQuery
