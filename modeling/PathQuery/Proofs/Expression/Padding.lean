import PathQuery.Proofs.Expression.Spacing
import PathQuery.Proofs.Expression.Tokens

/-!
# Blanks around an expression

A blank after an accepted text becomes no part of the token before it, and one in front of it is a
token of its own. So an expression with blanks around it is parsed to the same terms. What comes first
in an expression, behind the blanks, is one of a few tokens.
-/

namespace PathQuery
namespace Lexer

/-! ### A blank after a token -/

theorem takeWhile_concat {p : Char → Bool} {a : Char} (ha : p a = false) (cs : List Char) :
    (cs ++ [a]).takeWhile p = cs.takeWhile p := by
  induction cs with
  | nil => simp [ha]
  | cons c cs ih => simp only [List.cons_append, List.takeWhile_cons, ih]

theorem takeWhile_isDigit_concat (cs : List Char) :
    (cs ++ [' ']).takeWhile Char.isDigit = cs.takeWhile Char.isDigit :=
  takeWhile_concat rfl cs

theorem fractionLength_concat (cs : List Char) :
    fractionLength (cs ++ [' ']) = fractionLength cs := by
  cases cs with
  | nil => rfl
  | cons c cs =>
    by_cases hc : c = '.'
    · subst hc
      simp only [List.cons_append, fractionLength, takeWhile_isDigit_concat]
    · have hzero (ds : List Char) : fractionLength (c :: ds) = 0 := by simp [fractionLength, hc]
      rw [List.cons_append, hzero, hzero]

theorem exponentLength_concat (cs : List Char) :
    exponentLength (cs ++ [' ']) = exponentLength cs := by
  cases cs with
  | nil => rfl
  | cons c cs =>
    cases cs with
    | nil => simp [exponentLength, isSign]
    | cons d ds =>
      have hunsigned : (d :: (ds ++ [' '])).takeWhile Char.isDigit =
          (d :: ds).takeWhile Char.isDigit := takeWhile_isDigit_concat (d :: ds)
      by_cases hd : isSign d = true
      · simp [exponentLength, hd, takeWhile_isDigit_concat]
      · simp [exponentLength, hd, hunsigned]

theorem number_concat (cs : List Char) : number (cs ++ [' ']) = number cs := by
  have hwhole := takeWhile_length_le (p := Char.isDigit) cs
  have hfraction := fractionLength_le (cs.drop (cs.takeWhile Char.isDigit).length)
  have hexponent := exponentLength_le (cs.drop ((cs.takeWhile Char.isDigit).length +
    fractionLength (cs.drop (cs.takeWhile Char.isDigit).length)))
  rw [List.length_drop] at hfraction hexponent
  unfold number
  simp only [takeWhile_isDigit_concat]
  rw [List.drop_append_of_le_length hwhole, fractionLength_concat,
    List.drop_append_of_le_length (by omega), exponentLength_concat,
    List.take_append_of_le_length (by omega)]

/-- Neither a blank nor what can end a string or a tag. -/
theorem spellings_apart : (Symbol.spellings.all fun entry =>
    entry.1.all fun c => !([' ', '"', '\'', '\x7d'].contains c)) = true := by
  decide

theorem notMem_spelling {c : Char} (hc : c ∈ [' ', '"', '\'', '\x7d']) {entry : List Char × Symbol}
    (hentry : entry ∈ Symbol.spellings) : c ∉ entry.1 := by
  intro hmem
  have hapart := List.all_eq_true.mp (List.all_eq_true.mp spellings_apart entry hentry) c hmem
  rw [List.contains_iff_mem.mpr hc] at hapart
  cases hapart

theorem symbol?_concat (cs : List Char) : symbol? (cs ++ [' ']) = symbol? cs := by
  refine List.find?_congr fun entry hentry => ?_
  rw [Bool.eq_iff_iff, List.isPrefixOf_iff_prefix, List.isPrefixOf_iff_prefix,
    List.prefix_concat_iff]
  refine or_iff_right fun heq => notMem_spelling List.mem_cons_self hentry ?_
  rw [heq]
  exact List.mem_append_right cs List.mem_cons_self

theorem Takes.concat {kind : TokenKind} {text rest : List Char} (h : Takes kind text rest)
    (hkind : kind ≠ .whitespace) : Takes kind text (rest ++ [' ']) := by
  cases h with
  | blanks htext hrest => exact absurd rfl hkind
  | string hquote hbody => exact .string hquote hbody
  | @number _ c tail _ hc h =>
    refine .number hc ?_
    rw [← h, ← number_concat (c :: (tail ++ rest)), List.cons_append, List.append_assoc]
  | function hc hname => exact .function hc hname
  | name hc hname hrest =>
    refine .name hc hname fun d hd => ?_
    cases rest with
    | nil =>
      cases hd
      decide
    | cons c cs => exact hrest d hd
  | @symbol _ c tail _ hc h =>
    refine .symbol hc ?_
    rw [← h, ← symbol?_concat (c :: (tail ++ rest)), List.cons_append, List.append_assoc]

/-! ### Blanks on both sides -/

theorem Scans.blanks {text cs : List Char} {ks : List Sign} (htext : ∀ d ∈ text, isBlank d = true)
    (h : Scans true cs ks) : Scans true (text ++ cs) ks := by
  induction text with
  | nil => exact h
  | cons c tail ih =>
    exact .blank (htext c List.mem_cons_self) (ih fun d hd => htext d (List.mem_cons_of_mem c hd))

theorem scans_of_divided {offset : Nat} {cs : List Char} {ts : List Token}
    (h : Divided offset cs ts) (spaced : Bool) :
    Scans spaced (cs ++ [' ']) ((Lexeme.ofTokens spaced ts).map Lexeme.sign) := by
  induction h generalizing spaced with
  | nil offset => exact .blank rfl .nil
  | @cons offset kind text rest ts h hrest ih =>
    obtain ⟨c, tail, rfl⟩ := List.exists_cons_of_ne_nil h.ne_nil
    rw [Lexeme.ofTokens]
    by_cases hkind : kind = .whitespace
    · subst hkind
      have hblank := h.blank.1
      rw [if_pos rfl, List.cons_append, List.cons_append, List.append_assoc]
      exact .blank (hblank c List.mem_cons_self)
        ((ih true).blanks fun d hd => hblank d (List.mem_cons_of_mem c hd))
    · rw [if_neg hkind, List.cons_append, List.cons_append, List.append_assoc, List.map_cons]
      exact .piece (scan_of_takes (h.concat hkind)) hkind (ih false)

end Lexer

namespace Parser

/-- Blanks before the first token are all that can differ. -/
theorem alikeAfterFirst_of_signs {ls ls' : List Lexeme}
    (hkinds : ls.map Lexeme.kind = ls'.map Lexeme.kind)
    (htail : (ls.map Lexeme.sign).tail = (ls'.map Lexeme.sign).tail) : AlikeAfterFirst ls ls' := by
  refine alikeAfterFirst_of_kinds hkinds fun p hp _ => ?_
  rw [List.tail_zip, htail, List.zip_eq_zipWith, List.zipWith_self] at hp
  obtain ⟨x, _, rfl⟩ := List.mem_map.mp hp
  rfl

end Parser

theorem map_kind_eq (ls : List Lexeme) :
    ls.map Lexeme.kind = (ls.map Lexeme.sign).map Prod.fst := by
  rw [List.map_map]
  rfl

theorem tail_sign_ofTokens (ts : List Token) (spaced spaced' : Bool) :
    ((Lexeme.ofTokens spaced ts).map Lexeme.sign).tail =
      ((Lexeme.ofTokens spaced' ts).map Lexeme.sign).tail := by
  cases ts with
  | nil => rfl
  | cons t ts =>
    rw [Lexeme.ofTokens, Lexeme.ofTokens]
    split <;> rfl

open Lexer

/-- Blanks around an expression do not change its terms. -/
theorem parse_padded {check? : Signatures} {source : String} {terms : List Term}
    (h : parse check? source = .ok terms) : parse check? (" " ++ source ++ " ") = .ok terms := by
  obtain ⟨ts, htokens, _⟩ := ok_of_bind h
  have hscans := scans_of_divided (divided_of_tokensFrom (ok_of_mapError htokens)) true
  obtain ⟨ts', hpadded, hsigns⟩ :=
    (Scans.blank rfl hscans : Scans false (' ' :: (source.toList ++ [' '])) _).tokens 0
  have htokens' : tokenize (" " ++ source ++ " ") = .ok ts' := by
    have hchars : (" " ++ source ++ " ").toList = ' ' :: (source.toList ++ [' ']) := by simp
    rw [tokenize, hchars, hpadded]
    rfl
  have hkinds : (Lexeme.ofTokens false ts).map Lexeme.kind =
      (Lexeme.ofTokens false ts').map Lexeme.kind := by
    rw [map_kind_eq (Lexeme.ofTokens false ts'), hsigns, ← map_kind_eq, map_kind_ofTokens,
      map_kind_ofTokens]
  have htail : ((Lexeme.ofTokens false ts).map Lexeme.sign).tail =
      ((Lexeme.ofTokens false ts').map Lexeme.sign).tail := by
    rw [hsigns, tail_sign_ofTokens ts false true]
  have hsame := parse_eq_of_alike check? htokens htokens'
    (Parser.alikeAfterFirst_of_signs hkinds htail)
  rw [h] at hsame
  exact ok_of_mapError hsame.symm

/-! ### What an expression begins with -/

namespace Parser

/-- Whether an expression can begin with the token. -/
def beginsExpression : TokenKind → Bool
  | .function _ | .symbol .leftParen | .symbol .bang | .symbol .minus => true
  | k => (atom? k).isSome || beginsSegment k

theorem beginsExpression_of_parseAll {check? : Signatures} {stop : Nat} {l : Lexeme}
    {ls : List Lexeme} {ts : List Term} (h : parseAll check? stop (l :: ls) = .ok ts) :
    beginsExpression l.kind = true := by
  by_contra hbegins
  obtain ⟨k, o, s⟩ := l
  have hfunction (name : String) : k ≠ .function name := by rintro rfl; exact hbegins rfl
  have hparen : k ≠ .symbol .leftParen := by rintro rfl; exact hbegins rfl
  have hbang : k ≠ .symbol .bang := by rintro rfl; exact hbegins rfl
  have hminus : k ≠ .symbol .minus := by rintro rfl; exact hbegins rfl
  have hother : atom? k = none ∧ beginsSegment k = false := by
    simpa [beginsExpression, hfunction, hparen, hbang, hminus] using hbegins
  have hprimary : parsePrimary check? stop (⟨k, o, s⟩ :: ls) =
      .error (unexpected stop .expression (⟨k, o, s⟩ :: ls)) := by
    rw [parsePrimary]
    · have hnone : parseSegment check? stop (⟨k, o, s⟩ :: ls) = .ok none :=
        parseSegment_none check? stop hother.2
      simp only [hother.1, hnone]
      rfl
    all_goals simp [hfunction, hparen]
  have hunary : parseUnary check? stop (⟨k, o, s⟩ :: ls) =
      .error (unexpected stop .expression (⟨k, o, s⟩ :: ls)) := by
    rw [parseUnary, parsePower, parsePostfix, hprimary]
    · rfl
    all_goals simp [hbang, hminus]
  rw [parseAll, parseList, parseExpr, parseBinary, hunary] at h
  cases h

end Parser
end PathQuery
