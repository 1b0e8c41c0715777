import PathQuery.Proofs.Expression.Padding
import PathQuery.Proofs.Template.WellNested
import PathQuery.Query
import PathQuery.Template.Basic

/-!
# Expressions in tags

The end of a tag is looked for without tokenizing what stands in it; only quotes and backslashes are
heeded. Over an expression whose backslashes all stand in strings, both ways of reading are in a string
at the same characters, so a tag holds the whole expression, whatever its strings contain.
-/

namespace PathQuery
namespace Lexer

/-! ### Characters of numerals -/

def isNumeralChar (c : Char) : Bool := c.isDigit || c ∈ ['.', 'e', 'E', '+', '-']

theorem take_takeWhile {p : Char → Bool} (cs : List Char) :
    cs.take (cs.takeWhile p).length = cs.takeWhile p :=
  (List.prefix_iff_eq_take.mp (List.takeWhile_prefix p)).symm

theorem isNumeralChar_digits (cs : List Char) :
    ∀ c ∈ cs.take (cs.takeWhile Char.isDigit).length, isNumeralChar c = true := by
  intro c hc
  rw [take_takeWhile] at hc
  rw [isNumeralChar, List.mem_takeWhile_imp hc, Bool.true_or]

theorem isNumeralChar_fraction (cs : List Char) :
    ∀ c ∈ cs.take (fractionLength cs), isNumeralChar c = true := by
  unfold fractionLength
  split
  · dsimp only
    split
    · simp
    · rw [Nat.add_comm, List.take_succ_cons, List.forall_mem_cons]
      exact ⟨by decide, isNumeralChar_digits _⟩
  · simp

theorem isNumeralChar_sign (cs : List Char) :
    ∀ c ∈ cs.take (if cs.head?.any isSign then 1 else 0), isNumeralChar c = true := by
  cases cs with
  | nil => simp
  | cons d ds =>
    by_cases hd : isSign d = true
    · have hd' : d = '+' ∨ d = '-' := by simpa [isSign] using hd
      rcases hd' with rfl | rfl <;> simp [isSign, isNumeralChar]
    · simp [hd]

theorem isNumeralChar_exponent (cs : List Char) :
    ∀ c ∈ cs.take (exponentLength cs), isNumeralChar c = true := by
  cases cs with
  | nil => simp
  | cons d ds =>
    rw [exponentLength]
    split
    · next hmark =>
      have hsign := isNumeralChar_sign ds
      generalize (if ds.head?.any isSign = true then 1 else 0 : Nat) = sign at hsign ⊢
      dsimp only
      split
      · simp
      · rw [Nat.add_assoc, Nat.add_comm 1, List.take_succ_cons, List.take_add, List.forall_mem_cons,
          List.forall_mem_append]
        refine ⟨?_, hsign, isNumeralChar_digits _⟩
        rcases hmark with rfl | rfl <;> decide
    · simp

theorem isNumeralChar_number (cs : List Char) :
    ∀ c ∈ cs.take (number cs).2, isNumeralChar c = true := by
  rw [number_length, List.take_add, List.take_add, List.forall_mem_append, List.forall_mem_append]
  exact ⟨⟨isNumeralChar_digits _, isNumeralChar_fraction _⟩, isNumeralChar_exponent _⟩

end Lexer

namespace Piece

open Lexer

/-! ### Looking for the end of a tag -/

/-- The search for the end of a tag goes over the text, and a quote is open before and after it as
stated. -/
def Passes (before : Option Char) (text : List Char) (after : Option Char) : Prop :=
  ∀ rest, closeTag? before (text ++ rest) =
    (closeTag? after rest).map fun (body, behind) => (text ++ body, behind)

/-- A character without a meaning outside of strings. -/
def IsPlain (c : Char) : Prop := c ≠ '"' ∧ c ≠ '\'' ∧ c ≠ '\x7d'

namespace Passes

variable {q : Char} {before between after : Option Char} {text more : List Char}

theorem nil : Passes before [] before := by
  intro rest
  cases h : closeTag? before rest <;> simp [h]

theorem append (h : Passes before text between) (h' : Passes between more after) :
    Passes before (text ++ more) after := by
  intro rest
  rw [List.append_assoc, h, h', Option.map_map]
  simp [Function.comp_def]

theorem cons {c : Char} (h : Passes before [c] between) (h' : Passes between text after) :
    Passes before (c :: text) after :=
  h.append h'

theorem plain {c : Char} (hc : IsPlain c) : Passes none [c] none := by
  intro rest
  obtain ⟨hdouble, hsingle, hbrace⟩ := hc
  rw [List.singleton_append, closeTag?]
  · simp [hdouble, hsingle]
  · rintro _ rfl
    exact absurd rfl hbrace

theorem plains (h : ∀ c ∈ text, IsPlain c) : Passes none text none := by
  induction text with
  | nil => exact nil
  | cons c text ih =>
    exact (plain (h c List.mem_cons_self)).cons (ih fun d hd => h d (List.mem_cons_of_mem c hd))

theorem opening (hq : q ∈ quotes) : Passes none [q] (some q) := by
  intro rest
  have hquote : q = '"' ∨ q = '\'' := by simpa [quotes] using hq
  rw [List.singleton_append, closeTag?]
  · rw [if_pos hquote]
    rfl
  · rintro _ rfl
    rcases hquote with h | h <;> cases h

theorem closing (hslash : q ≠ '\\') : Passes (some q) [q] none := by
  intro rest
  rw [List.singleton_append, closeTag?]
  · rw [if_pos rfl]
    rfl
  · exact fun _ _ h _ => hslash h

theorem inside {c : Char} (hquote : c ≠ q) (hslash : c ≠ '\\') : Passes (some q) [c] (some q) := by
  intro rest
  rw [List.singleton_append, closeTag?]
  · rw [if_neg hquote]
    rfl
  · exact fun _ _ h _ => hslash h

theorem escape (c : Char) : Passes (some q) ['\\', c] (some q) := by
  intro rest
  rw [List.cons_append, List.singleton_append, closeTag?]
  rfl

end Passes

/-! ### Strings -/

theorem ne_of_hexValue? {q c : Char} {n : Nat} (hq : q ∈ quotes) (h : hexValue? c = some n) :
    c ≠ q ∧ c ≠ '\\' := by
  constructor
  · rintro rfl
    simp only [quotes, List.mem_cons, List.not_mem_nil, or_false] at hq
    rcases hq with rfl | rfl <;> cases h
  · rintro rfl
    cases h

theorem Passes.spells {q : Char} (hq : q ∈ quotes) {signed : Bool} {body text : List Char}
    (h : Spells q signed body text) : Passes (some q) body (some q) := by
  have hdigit {c : Char} {n : Nat} (hc : hexValue? c = some n) : Passes (some q) [c] (some q) :=
    inside (ne_of_hexValue? hq hc).1 (ne_of_hexValue? hq hc).2
  -- along the pieces of the string: after each of them the quote is still open
  induction h with
  | nil => exact nil
  | plain hquote hslash _ ih => exact (inside hquote hslash).cons ih
  | named _ _ ih | itself _ _ ih => exact (escape _).append ih
  | code ha hb hc hd _ _ ih =>
    exact (escape 'u').append
      ((hdigit ha).cons ((hdigit hb).cons ((hdigit hc).cons ((hdigit hd).cons ih))))
  | signedCode hb hc hd _ _ ih =>
    have hplus : '+' ≠ q := by
      rintro rfl
      simp [quotes] at hq
    exact (escape 'u').append ((inside hplus (by decide)).cons
      ((hdigit hb).cons ((hdigit hc).cons ((hdigit hd).cons ih))))

/-! ### Tokens -/

theorem IsPlain.of_class {p : Char → Bool} (hdouble : p '"' = false) (hsingle : p '\'' = false)
    (hbrace : p '\x7d' = false) {c : Char} (hc : p c = true) : IsPlain c := by
  refine ⟨?_, ?_, ?_⟩
  · rintro rfl
    simp [hdouble] at hc
  · rintro rfl
    simp [hsingle] at hc
  · rintro rfl
    simp [hbrace] at hc

theorem isPlain_of_nameText {text name : List Char} (h : NameText text name)
    (hslash : '\\' ∉ text) : ∀ c ∈ text, IsPlain c := by
  induction h with
  | nil => simp
  | quoted _ _ => exact absurd List.mem_cons_self hslash
  | @plain c text name _ hc _ ih =>
    rw [List.forall_mem_cons]
    refine ⟨.of_class ?_ ?_ ?_ hc, ih fun h => hslash (List.mem_cons_of_mem c h)⟩ <;> decide

theorem isPlain_of_mem_spellings {entry : List Char × Symbol} (h : entry ∈ Symbol.spellings) :
    ∀ c ∈ entry.1, IsPlain c := by
  intro c hc
  refine ⟨?_, ?_, ?_⟩
  all_goals
    rintro rfl
    exact notMem_spelling (by decide) h hc

/-- A token is gone over with no quote open after it. A name may have a quote behind a backslash, so
backslashes are left to strings. -/
theorem Passes.token {kind : TokenKind} {text rest : List Char} (h : Takes kind text rest)
    (hslash : '\\' ∈ text → ∃ s, kind = .string s) : Passes none text none := by
  cases h with
  | blanks htext hrest =>
    exact plains fun c hc => .of_class (by decide) (by decide) (by decide) (htext c hc)
  | string hquote hbody =>
    exact (opening hquote).cons ((spells hquote hbody).append (closing (ne_slash_of_mem_quotes hquote)))
  | @number _ c tail _ hc h =>
    -- a numeral has letters, digits, points and signs only
    have htext : (c :: (tail ++ rest)).take (number (c :: (tail ++ rest))).2 = c :: tail := by
      rw [h]
      change ((c :: tail) ++ rest).take (c :: tail).length = c :: tail
      exact List.take_left
    refine plains fun d hd => .of_class (p := isNumeralChar) (by decide) (by decide) (by decide) ?_
    exact isNumeralChar_number _ d (htext ▸ hd)
  | @function c tail name _ hc hname =>
    have hno : '\\' ∉ c :: tail := by
      intro hmem
      obtain ⟨s, hs⟩ := hslash (List.mem_append_left ['('] hmem)
      cases hs
    refine Passes.append (plains (isPlain_of_nameText hname hno)) (plain ?_)
    exact ⟨by decide, by decide, by decide⟩
  | name hc hname hrest =>
    refine plains (isPlain_of_nameText hname fun hmem => ?_)
    obtain ⟨s, hs⟩ := hslash hmem
    cases hs
  | symbol hc h => exact plains (isPlain_of_mem_spellings (List.mem_of_find?_eq_some h))

theorem Passes.divided {offset : Nat} {cs : List Char} {ts : List Token} (h : Divided offset cs ts)
    (hslash : ∀ t ∈ ts, '\\' ∈ t.text.toList → ∃ s, t.kind = .string s) : Passes none cs none := by
  induction h with
  | nil => exact nil
  | cons h _ ih =>
    rw [List.forall_mem_cons, String.toList_ofList] at hslash
    exact (token h hslash.1).append (ih hslash.2)

end Piece

/-! ### What a tag begins with -/

open Lexer

theorem first_of_divided {offset : Nat} {cs : List Char} {ts : List Token} {spaced : Bool}
    {l : Lexeme} {ls : List Lexeme} (h : Divided offset cs ts)
    (hl : Lexeme.ofTokens spaced ts = l :: ls) :
    ∃ c tail rest, cs.dropWhile isBlank = c :: (tail ++ rest) ∧ Takes l.kind (c :: tail) rest := by
  induction h generalizing spaced with
  | nil => cases hl
  | @cons offset kind text rest ts h _ ih =>
    rw [Lexeme.ofTokens] at hl
    split at hl
    · next hkind =>
      cases hkind
      rw [List.dropWhile_append_of_pos h.blank.1]
      exact ih hl
    · next hkind =>
      cases hl
      obtain ⟨c, tail, rfl⟩ := List.exists_cons_of_ne_nil h.ne_nil
      refine ⟨c, tail, rest, List.dropWhile_cons_of_neg fun hblank => hkind ?_, h⟩
      -- a token that begins with a blank is whitespace
      have hscan := (scan_of_takes h 0).symm.trans (scan_blank 0 _ hblank)
      simp only [Except.ok.injEq, Prod.mk.injEq] at hscan
      exact hscan.1

theorem ofChar?_spellings : (Symbol.spellings.all fun entry =>
    !(Parser.beginsExpression (.symbol entry.2)) ||
      entry.1.head?.all fun c => (Mark.Sign.ofChar? c).isNone) = true := by
  decide

theorem beginsSymbol_of_ofChar? {c : Char} (h : Mark.Sign.ofChar? c ≠ none) :
    beginsSymbol c = true := by
  have hc : c ∈ ['#', '?', ':', '/', '>'] := by
    by_contra hnot
    simp only [List.mem_cons, List.not_mem_nil, or_false, not_or] at hnot
    exact h (by simp [Mark.Sign.ofChar?, hnot])
  simp only [List.mem_cons, List.not_mem_nil, or_false] at hc
  rcases hc with rfl | rfl | rfl | rfl | rfl <;> decide

/-- No sign of a tag is the first character of an expression. -/
theorem ofChar?_eq_none {kind : TokenKind} {c : Char} {tail rest : List Char}
    (h : Takes kind (c :: tail) rest) (hbegins : Parser.beginsExpression kind = true) :
    Mark.Sign.ofChar? c = none := by
  by_contra hsign
  have hscan := scan_of_takes h 0
  rw [scan_beginsSymbol 0 _ (beginsSymbol_of_ofChar? hsign)] at hscan
  cases hsymbol : symbol? (c :: (tail ++ rest)) with
  | none =>
    rw [hsymbol] at hscan
    cases hscan
  | some entry =>
    obtain ⟨spelling, s⟩ := entry
    simp only [hsymbol, Except.ok.injEq, Prod.mk.injEq] at hscan
    obtain rfl := hscan.1
    have hnone := List.all_eq_true.mp ofChar?_spellings _ h.longest.1
    simp only [hbegins, Bool.not_true, Bool.false_or, List.head?_cons, Option.all_some,
      Option.isNone_iff_eq_none] at hnone
    exact hsign hnone

/-- The terms of an accepted expression are behind no sign, and some character is no blank. -/
theorem splitSign_of_parse {check? : Signatures} {e : String} {terms : List Term}
    (hparse : parse check? e = .ok terms) :
    Mark.splitSign (' ' :: (e.toList ++ [' '])) = (none, 0, ' ' :: (e.toList ++ [' '])) ∧
      Mark.isBlankRun (' ' :: (e.toList ++ [' '])) = false := by
  obtain ⟨ts, htokens, hall⟩ := ok_of_bind hparse
  have hdivided := divided_of_tokensFrom (ok_of_mapError htokens)
  have hall := ok_of_mapError hall
  cases hl : Lexeme.ofTokens false ts with
  | nil =>
    rw [hl] at hall
    cases hall
  | cons l ls =>
    rw [hl] at hall
    obtain ⟨c, tail, rest, hdrop, htakes⟩ := first_of_divided hdivided hl
    have hnone := ofChar?_eq_none htakes (Parser.beginsExpression_of_parseAll hall)
    have hbody : (' ' :: (e.toList ++ [' '])).dropWhile isBlank = c :: (tail ++ rest ++ [' ']) := by
      rw [List.dropWhile_cons_of_pos rfl, List.dropWhile_append, hdrop]
      rfl
    constructor
    · simp only [Mark.splitSign, hbody, hnone]
    · cases hblank : Mark.isBlankRun (' ' :: (e.toList ++ [' '])) with
      | false => rfl
      | true =>
        rw [List.dropWhile_eq_nil_iff.mpr (List.all_eq_true.mp hblank)] at hbody
        cases hbody

/-! ### Templates of one tag -/

theorem close?_body {e : String} {ts : List Token} (htokens : tokenize e = .ok ts)
    (hslash : ∀ t ∈ ts, '\\' ∈ t.text.toList → ∃ s, t.kind = .string s) :
    Piece.close? (' ' :: (e.toList ++ [' ']) ++ ['\x7d', '\x7d']) =
      some (' ' :: (e.toList ++ [' ']), []) := by
  have hdivided := divided_of_tokensFrom (ok_of_mapError htokens)
  have hspace : Piece.IsPlain ' ' := by unfold Piece.IsPlain; decide
  have hpasses : Piece.Passes none (' ' :: (e.toList ++ [' '])) none :=
    (Piece.Passes.plain hspace).cons
      ((Piece.Passes.divided hdivided hslash).append (Piece.Passes.plain hspace))
  rw [Piece.close?, if_neg (by simp), hpasses]
  simp [Piece.closeTag?]

theorem parseTemplate_tag {check? : Signatures} {e : String} {terms : List Term} {ts : List Token}
    (hparse : parse check? e = .ok terms) (htokens : tokenize e = .ok ts)
    (hslash : ∀ t ∈ ts, '\\' ∈ t.text.toList → ∃ s, t.kind = .string s) :
    parseTemplate check? ("\x7b\x7b " ++ e ++ " \x7d\x7d") = .ok [.value terms] := by
  have hchars : ("\x7b\x7b " ++ e ++ " \x7d\x7d").toList =
      '\x7b' :: '\x7b' :: (' ' :: (e.toList ++ [' ']) ++ ['\x7d', '\x7d']) := by
    simp
  have hopen (inside : List Char) :
      Piece.splitAtPair? '\x7b' ('\x7b' :: '\x7b' :: inside) = some ([], inside) := by
    simp [Piece.splitAtPair?]
  have hpieces : Piece.ofSource ("\x7b\x7b " ++ e ++ " \x7d\x7d").toList =
      [.tag 0 (' ' :: (e.toList ++ [' ']))] := by
    rw [Piece.ofSource, hchars, Piece.scan_of_body (hopen _) (close?_body htokens hslash),
      Piece.scan_of_text (by rfl)]
    rfl
  have hpadded : parse check? (String.ofList (' ' :: (e.toList ++ [' ']))) = .ok terms := by
    have hbody : String.ofList (' ' :: (e.toList ++ [' '])) = " " ++ e ++ " " := by
      rw [← String.toList_inj]
      simp
    rw [hbody]
    exact parse_padded hparse
  obtain ⟨hsign, hblank⟩ := splitSign_of_parse hparse
  rw [parseTemplate_eq_ok_iff, hpieces]
  exact ⟨_, .tag 0 (.value hsign hblank hpadded) .nil, .value terms .nil⟩

/-- Tags and strings agree on where strings end. A tag around an expression that compiles, with blanks
beside it, is a template of one part, which holds the terms of the expression, if each backslash of the
expression is in a string. -/
theorem Template.compile_tag {config : Configuration} {location : Option String} {e : String}
    {q : Query} {ts : List Token} (hcompile : Query.compile config e = .ok q)
    (htokens : tokenize e = .ok ts)
    (hslash : ∀ t ∈ ts, '\\' ∈ t.text.toList → ∃ s, t.kind = .string s) :
    Template.compile config location ("\x7b\x7b " ++ e ++ " \x7d\x7d") =
      .ok ⟨location, [.value q.terms], config⟩ := by
  obtain ⟨terms, hparse, hq⟩ := ok_of_bind hcompile
  cases hq
  rw [Template.compile, parseTemplate_tag hparse htokens hslash]
  rfl

/-- Double braces, an escaped quote and the other quote in strings. -/
theorem Template.compile_tag_strings :
    let e := "'\x7d\x7d\\'\x7b\x7b'+\"\\u0041'\""
    let ts : List Token := [⟨.string "\x7d\x7d'\x7b\x7b", 0, "'\x7d\x7d\\'\x7b\x7b'"⟩,
      ⟨.symbol .plus, 8, "+"⟩, ⟨.string "A'", 9, "\"\\u0041'\""⟩]
    let q : Query := ⟨e, [.binary .add (.literal (.str "\x7d\x7d'\x7b\x7b"))
      (.literal (.str "A'"))], .default⟩
    Query.compile .default e = .ok q ∧ tokenize e = .ok ts ∧
      Template.compile .default none ("\x7b\x7b " ++ e ++ " \x7d\x7d") =
        .ok ⟨none, [.value q.terms], .default⟩ := by
  intro e ts q
  have hparse : parse Registry.builtins.signatures e = .ok q.terms := by decide +kernel
  have hq : Query.compile .default e = .ok q := by
    change parse Registry.builtins.signatures e >>= _ = _
    rw [hparse]
    rfl
  have htokens : tokenize e = .ok ts := by decide +kernel
  have hslash : ∀ t ∈ ts, '\\' ∈ t.text.toList → ∃ s, t.kind = .string s := by
    simp [ts]
  exact ⟨hq, htokens, Template.compile_tag hq htokens hslash⟩

end PathQuery
