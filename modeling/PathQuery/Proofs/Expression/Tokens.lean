import PathQuery.Proofs.Expression.StringLiterals

/-!
# Tokens and the text they cover

For each kind of token, `Lexer.Takes` says which texts are one, and what must not come next. The
scanner takes a token just if this relation holds, at whatever place. A source that is accepted is
divided into tokens by it, so nothing of the source is lost, and no operator is cut short.
-/

namespace PathQuery
namespace Lexer

/-! ### Names -/

/-- What stands for a name, and the name. -/
inductive NameText : List Char → List Char → Prop where
  | nil : NameText [] []
  | quoted {c : Char} {text name : List Char} (h : NameText text name) :
      NameText ('\\' :: c :: text) (c :: name)
  | plain {c : Char} {text name : List Char} (hslash : c ≠ '\\') (hc : isNameChar c = true)
      (h : NameText text name) : NameText (c :: text) (c :: name)

theorem nameBody_of_nameText {text name : List Char} (h : NameText text name) {rest : List Char}
    (hrest : ∀ d ∈ rest.head?, isNameChar d = false) (offset : Nat) :
    nameBody offset (text ++ rest) = .ok (name, text.length) := by
  induction h generalizing offset with
  | nil =>
    exact nameBody_append (by simp) hrest offset
  | quoted h ih =>
    rw [List.cons_append, List.cons_append, nameBody, ih]
    rfl
  | plain hslash hc h ih =>
    rw [List.cons_append, nameBody, hc, ih]
    · rfl
    · exact fun heq _ => hslash heq
    · exact fun _ _ heq _ => hslash heq

theorem exists_nameText_of_nameBody {offset : Nat} {cs name : List Char} {count : Nat}
    (h : nameBody offset cs = .ok (name, count)) :
    ∃ text rest, NameText text name ∧ cs = text ++ rest ∧ count = text.length ∧
      ∀ d ∈ rest.head?, isNameChar d = false := by
  fun_induction nameBody offset cs generalizing name count with
  | case1 =>
    cases h
    exact ⟨[], [], .nil, rfl, rfl, by simp⟩
  | case2 => cases h
  | case3 offset c cs ih =>
    obtain ⟨⟨name', count'⟩, hrest, h⟩ := ok_of_bind h
    cases h
    obtain ⟨text, rest, htext, rfl, rfl, hhead⟩ := ih hrest
    exact ⟨_, rest, .quoted htext, rfl, rfl, hhead⟩
  | case4 offset c cs hend hpair hc ih =>
    obtain ⟨⟨name', count'⟩, hrest, h⟩ := ok_of_bind h
    cases h
    obtain ⟨text, rest, htext, rfl, rfl, hhead⟩ := ih hrest
    have hslash : c ≠ '\\' := by
      rintro rfl
      cases hcs : text ++ rest with
      | nil => exact hend rfl hcs
      | cons d ds => exact hpair d ds rfl hcs
    exact ⟨_, rest, .plain hslash hc htext, rfl, rfl, hhead⟩
  | case5 offset c cs hend hpair hc =>
    cases h
    exact ⟨[], c :: cs, .nil, rfl, rfl, by simpa using hc⟩

/-! ### Numbers -/

theorem takeWhile_length_le {p : Char → Bool} (cs : List Char) :
    (cs.takeWhile p).length ≤ cs.length :=
  (List.takeWhile_sublist p).length_le

theorem fractionLength_le (cs : List Char) : fractionLength cs ≤ cs.length := by
  unfold fractionLength
  split
  · next ds =>
    have hle := takeWhile_length_le (p := Char.isDigit) ds
    simp only [List.length_cons]
    split <;> omega
  · exact Nat.zero_le _

theorem exponentLength_le (cs : List Char) : exponentLength cs ≤ cs.length := by
  cases cs with
  | nil => exact Nat.le_refl 0
  | cons c cs =>
    rw [exponentLength]
    split
    · generalize hsign : (if cs.head?.any isSign = true then 1 else 0 : Nat) = sign
      have hle := takeWhile_length_le (p := Char.isDigit) (cs.drop sign)
      have hsome : sign ≤ cs.length := by
        cases cs with
        | nil => simp at hsign; omega
        | cons d ds =>
          rw [List.length_cons]
          split at hsign <;> omega
      rw [List.length_drop] at hle
      simp only [List.length_cons]
      split <;> omega
    · exact Nat.zero_le _

theorem number_length (cs : List Char) :
    (number cs).2 = (cs.takeWhile Char.isDigit).length +
      fractionLength (cs.drop (cs.takeWhile Char.isDigit).length) +
      exponentLength (cs.drop ((cs.takeWhile Char.isDigit).length +
        fractionLength (cs.drop (cs.takeWhile Char.isDigit).length))) := by
  unfold number
  dsimp only
  split <;> rfl

theorem number_length_le (cs : List Char) : (number cs).2 ≤ cs.length := by
  have hwhole := takeWhile_length_le (p := Char.isDigit) cs
  have hfraction := fractionLength_le (cs.drop (cs.takeWhile Char.isDigit).length)
  have hexponent := exponentLength_le (cs.drop ((cs.takeWhile Char.isDigit).length +
    fractionLength (cs.drop (cs.takeWhile Char.isDigit).length)))
  rw [List.length_drop] at hfraction hexponent
  rw [number_length]
  omega

theorem number_length_pos {c : Char} (hc : c.isDigit = true) (cs : List Char) :
    0 < (number (c :: cs)).2 := by
  rw [number_length, List.takeWhile_cons_of_pos hc, List.length_cons]
  omega

theorem number_kind {cs : List Char} {kind : TokenKind} {count : Nat}
    (h : number cs = (kind, count)) : (∃ i, kind = .integer i) ∨ ∃ r, kind = .real r := by
  have hkind : kind = (number cs).1 := by rw [h]
  unfold number at hkind
  dsimp only at hkind
  split at hkind
  · generalize readInt64? _ = read at hkind
    cases read with
    | none => exact .inr ⟨_, hkind⟩
    | some i => exact .inl ⟨i, hkind⟩
  · exact .inr ⟨_, hkind⟩

/-! ### Tokens of each kind -/

/-- In front of `rest`, the text is a token of this kind. -/
inductive Takes : TokenKind → List Char → List Char → Prop where
  | blanks {c : Char} {tail rest : List Char} (htext : ∀ d ∈ c :: tail, isBlank d = true)
      (hrest : ∀ d ∈ rest.head?, isBlank d = false) : Takes .whitespace (c :: tail) rest
  | string {quote : Char} {signed : Bool} {body text rest : List Char} (hquote : quote ∈ quotes)
      (hbody : Spells quote signed body text) :
      Takes (.string (String.ofList text)) (quote :: (body ++ [quote])) rest
  | number {kind : TokenKind} {c : Char} {tail rest : List Char} (hc : c.isDigit = true)
      (h : number (c :: (tail ++ rest)) = (kind, tail.length + 1)) : Takes kind (c :: tail) rest
  | function {c : Char} {tail name rest : List Char} (hc : isNameStart c = true)
      (hname : NameText (c :: tail) name) :
      Takes (.function (String.ofList name)) (c :: (tail ++ ['('])) rest
  | name {c : Char} {tail name rest : List Char} (hc : isNameStart c = true)
      (hname : NameText (c :: tail) name)
      (hrest : ∀ d ∈ rest.head?, d ≠ '(' ∧ isNameChar d = false) :
      Takes (.name (String.ofList name)) (c :: tail) rest
  | symbol {s : Symbol} {c : Char} {tail rest : List Char} (hc : beginsSymbol c = true)
      (h : symbol? (c :: (tail ++ rest)) = some (c :: tail, s)) : Takes (.symbol s) (c :: tail) rest

theorem isNameChar_paren : isNameChar '(' = false := by decide

theorem scan_of_takes {kind : TokenKind} {c : Char} {tail rest : List Char}
    (h : Takes kind (c :: tail) rest) (offset : Nat) :
    scan offset c (tail ++ rest) = .ok (kind, tail.length) := by
  generalize htext : c :: tail = text at h
  cases h with
  | blanks hall hrest =>
    cases htext
    rw [scan_blank offset _ (hall c List.mem_cons_self),
      takeWhile_append_of_head (fun d hd => hall d (List.mem_cons_of_mem c hd)) hrest]
  | string hquote hbody =>
    cases htext
    exact (scan_quote_eq_ok hquote offset).mpr ⟨_, _, _, rest, hbody, by simp, rfl, by simp⟩
  | number hc h =>
    cases htext
    rw [scan_digit offset _ hc, h, Nat.add_sub_cancel]
  | @function _ tail _ _ hc hname =>
    cases htext
    have hparen : ∀ d ∈ ('(' :: rest).head?, isNameChar d = false := by simp [isNameChar_paren]
    have hbody := nameBody_of_nameText hname hparen offset
    rw [List.cons_append] at hbody
    rw [List.append_assoc, List.singleton_append, scan_nameStart offset _ hc, hbody]
    simp [Except.map]
  | name hc hname hrest =>
    cases htext
    have hbody := nameBody_of_nameText hname (fun d hd => (hrest d hd).2) offset
    have hnext : (tail ++ rest)[tail.length]? = rest.head? := by
      rw [List.getElem?_append_right (Nat.le_refl _), Nat.sub_self, List.head?_eq_getElem?]
    have hparen : rest.head? ≠ some '(' := fun h => (hrest '(' h).1 rfl
    rw [List.cons_append] at hbody
    rw [scan_nameStart offset _ hc, hbody]
    simp [Except.map, hnext, hparen]
  | symbol hc h =>
    cases htext
    rw [scan_beginsSymbol offset _ hc, h]
    rfl

theorem spellings_ne_nil : Symbol.spellings.all (fun entry => !entry.1.isEmpty) = true := by decide

theorem exists_rest_of_symbol? {cs spelling : List Char} {s : Symbol}
    (h : symbol? cs = some (spelling, s)) :
    ∃ c tail rest, spelling = c :: tail ∧ cs = spelling ++ rest := by
  have hmem := List.all_eq_true.mp spellings_ne_nil _ (List.mem_of_find?_eq_some h)
  have hprefix : spelling.isPrefixOf cs = true := by
    unfold symbol? at h
    simpa using List.find?_some h
  obtain ⟨rest, hrest⟩ := List.isPrefixOf_iff_prefix.mp hprefix
  cases spelling with
  | nil => simp at hmem
  | cons c tail => exact ⟨c, tail, rest, rfl, hrest.symm⟩

theorem class_cases (c : Char) :
    isBlank c = true ∨ c ∈ quotes ∨ c.isDigit = true ∨ isNameStart c = true ∨
      beginsSymbol c = true := by
  by_cases hblank : isBlank c = true
  · exact .inl hblank
  by_cases hquote : c ∈ quotes
  · exact .inr (.inl hquote)
  by_cases hdigit : c.isDigit = true
  · exact .inr (.inr (.inl hdigit))
  by_cases hname : isNameStart c = true
  · exact .inr (.inr (.inr (.inl hname)))
  · refine .inr (.inr (.inr (.inr ?_)))
    simp only [quotes, List.mem_cons, List.not_mem_nil, or_false, not_or] at hquote
    simp [beginsSymbol, hblank, hquote, hdigit, hname]

section

variable {offset extra : Nat} {kind : TokenKind} {c : Char} {cs : List Char}

theorem exists_takes_of_scan_digit (hc : c.isDigit = true)
    (h : scan offset c cs = .ok (kind, extra)) :
    ∃ tail rest, cs = tail ++ rest ∧ extra = tail.length ∧ Takes kind (c :: tail) rest := by
  rw [scan_digit offset cs hc] at h
  have hpos := number_length_pos hc cs
  have hle := number_length_le (c :: cs)
  rw [List.length_cons] at hle
  cases h
  refine ⟨cs.take ((number (c :: cs)).2 - 1), cs.drop ((number (c :: cs)).2 - 1),
    (List.take_append_drop _ _).symm, ?_, .number hc ?_⟩
  · rw [List.length_take]
    omega
  · rw [List.take_append_drop, List.length_take]
    exact Prod.ext rfl (by simp only; omega)

theorem exists_takes_of_scan_nameStart (hc : isNameStart c = true)
    (h : scan offset c cs = .ok (kind, extra)) :
    ∃ tail rest, cs = tail ++ rest ∧ extra = tail.length ∧ Takes kind (c :: tail) rest := by
  rw [scan_nameStart offset cs hc] at h
  cases hbody : nameBody offset (c :: cs) with
  | error e =>
    rw [hbody] at h
    cases h
  | ok r =>
    obtain ⟨name, count⟩ := r
    rw [hbody] at h
    obtain ⟨text, rest, hname, hcs, rfl, hhead⟩ := exists_nameText_of_nameBody hbody
    cases text with
    | nil =>
      -- the first character of a name is one of its characters
      rw [List.nil_append] at hcs
      subst hcs
      have hfalse := hhead c rfl
      rw [isNameChar_of_isNameStart hc] at hfalse
      cases hfalse
    | cons d tail =>
      rw [List.cons_append] at hcs
      obtain ⟨rfl, rfl⟩ := List.cons.inj hcs
      have hnext : (tail ++ rest)[tail.length]? = rest.head? := by
        rw [List.getElem?_append_right (Nat.le_refl _), Nat.sub_self, List.head?_eq_getElem?]
      simp only [Except.map, List.length_cons, Nat.add_sub_cancel, hnext] at h
      -- a parenthesis right after a name is part of the token
      split at h
      · next hparen =>
        cases h
        obtain ⟨rest, rfl⟩ := List.head?_eq_some_iff.mp hparen
        exact ⟨tail ++ ['('], rest, by simp, by simp, .function hc hname⟩
      · next hparen =>
        cases h
        exact ⟨tail, rest, rfl, rfl, .name hc hname fun d hd =>
          ⟨fun heq => hparen (heq ▸ hd), hhead d hd⟩⟩

theorem exists_takes_of_scan (h : scan offset c cs = .ok (kind, extra)) :
    ∃ tail rest, cs = tail ++ rest ∧ extra = tail.length ∧ Takes kind (c :: tail) rest := by
  rcases class_cases c with hc | hc | hc | hc | hc
  · rw [scan_blank offset cs hc] at h
    cases h
    refine ⟨cs.takeWhile isBlank, cs.dropWhile isBlank, List.takeWhile_append_dropWhile.symm, rfl,
      .blanks ?_ ?_⟩
    · intro d hd
      rcases List.mem_cons.mp hd with rfl | hd
      · exact hc
      · exact List.mem_takeWhile_imp hd
    · intro d hd
      have hhead := List.head?_dropWhile_not isBlank cs
      rw [Option.mem_def.mp hd] at hhead
      exact hhead
  · obtain ⟨signed, body, text, rest, hbody, rfl, rfl, rfl⟩ := (scan_quote_eq_ok hc offset).mp h
    exact ⟨body ++ [c], rest, by simp, by simp, .string hc hbody⟩
  · exact exists_takes_of_scan_digit hc h
  · exact exists_takes_of_scan_nameStart hc h
  · rw [scan_beginsSymbol offset cs hc] at h
    cases hsymbol : symbol? (c :: cs) with
    | none =>
      rw [hsymbol] at h
      cases h
    | some entry =>
      obtain ⟨spelling, s⟩ := entry
      rw [hsymbol] at h
      cases h
      obtain ⟨d, tail, rest, rfl, hcs⟩ := exists_rest_of_symbol? hsymbol
      rw [List.cons_append] at hcs
      obtain ⟨rfl, rfl⟩ := List.cons.inj hcs
      exact ⟨tail, rest, rfl, rfl, .symbol hc hsymbol⟩

end

/-! ### Division of a text -/

/-- The text `cs` from byte `offset` on is divided into these tokens. -/
inductive Divided : Nat → List Char → List Token → Prop where
  | nil (offset : Nat) : Divided offset [] []
  | cons {offset : Nat} {kind : TokenKind} {text rest : List Char} {ts : List Token}
      (h : Takes kind text rest) (hrest : Divided (offset + byteLength text) rest ts) :
      Divided offset (text ++ rest) (⟨kind, offset, String.ofList text⟩ :: ts)

theorem divided_of_tokensFrom {offset : Nat} {cs : List Char} {ts : List Token}
    (h : tokensFrom offset cs = .ok ts) : Divided offset cs ts := by
  induction hn : cs.length using Nat.strongRecOn generalizing cs offset ts with
  | ind n ih =>
    cases cs with
    | nil =>
      rw [tokensFrom] at h
      cases h
      exact .nil offset
    | cons c cs =>
      rw [tokensFrom] at h
      obtain ⟨⟨kind, extra⟩, hscan, h⟩ := ok_of_bind h
      obtain ⟨ts', hrest, h⟩ := ok_of_bind h
      cases h
      obtain ⟨tail, rest, rfl, rfl, htakes⟩ := exists_takes_of_scan hscan
      rw [List.take_left, List.drop_left] at hrest
      rw [List.take_left]
      refine .cons htakes (ih rest.length ?_ hrest rfl)
      simp only [List.length_cons, List.length_append] at hn
      omega

theorem flatMap_text_of_divided {offset : Nat} {cs : List Char} {ts : List Token}
    (h : Divided offset cs ts) : ts.flatMap (fun t => t.text.toList) = cs := by
  induction h with
  | nil offset => rfl
  | cons h hrest ih => rw [List.flatMap_cons, ih, String.toList_ofList]

/-- A token of a divided text is taken in front of the texts of the tokens after it, and starts where
the texts of the tokens before it end. -/
theorem Divided.takes {offset : Nat} {cs : List Char} {before after : List Token} {t : Token}
    (h : Divided offset cs (before ++ t :: after)) :
    Takes t.kind t.text.toList (after.flatMap fun t => t.text.toList) ∧
      t.offset = offset + byteLength (before.flatMap fun t => t.text.toList) := by
  induction before generalizing offset cs with
  | nil =>
    cases h with
    | cons h hrest =>
      simp only [String.toList_ofList, flatMap_text_of_divided hrest]
      exact ⟨h, rfl⟩
  | cons u before ih =>
    cases h with
    | cons h hrest =>
      obtain ⟨htakes, hoffset⟩ := ih hrest
      refine ⟨htakes, ?_⟩
      rw [hoffset, List.flatMap_cons, byteLength_append, String.toList_ofList]
      omega

theorem Takes.ne_nil {kind : TokenKind} {text rest : List Char} (h : Takes kind text rest) :
    text ≠ [] := by
  cases h <;> exact List.cons_ne_nil _ _

theorem Takes.blank {text rest : List Char} (h : Takes .whitespace text rest) :
    (∀ d ∈ text, isBlank d = true) ∧ ∀ d ∈ rest.head?, isBlank d = false := by
  cases h with
  | blanks htext hrest => exact ⟨htext, hrest⟩
  | number hc h =>
    rcases number_kind h with ⟨_, hkind⟩ | ⟨_, hkind⟩ <;> cases hkind

/-! ### Longest operators -/

theorem spellings_pairwise :
    Symbol.spellings.Pairwise fun entry later => ¬ entry.1 <+: later.1 := by
  decide

theorem length_le_of_symbol? {cs spelling : List Char} {s : Symbol}
    (h : symbol? cs = some (spelling, s)) :
    ∀ entry ∈ Symbol.spellings, entry.1 <+: cs → entry.1.length ≤ spelling.length := by
  intro entry hentry hprefix
  obtain ⟨hfits, earlier, later, hsplit, hfirst⟩ := List.find?_eq_some_iff_append.mp h
  have hpairwise := spellings_pairwise
  rw [hsplit] at hentry hpairwise
  rcases List.mem_append.mp hentry with hmem | hmem
  · -- an earlier entry would have been found
    have hnot := hfirst entry hmem
    rw [List.isPrefixOf_iff_prefix.mpr hprefix] at hnot
    cases hnot
  rcases List.mem_cons.mp hmem with rfl | hmem
  · exact Nat.le_refl _
  · have hnot := (List.pairwise_cons.mp (List.pairwise_append.mp hpairwise).2.1).1 entry hmem
    rcases List.prefix_or_prefix_of_prefix hprefix (List.isPrefixOf_iff_prefix.mp hfits) with h | h
    · exact h.length_le
    · exact absurd h hnot

theorem Takes.longest {s : Symbol} {text rest : List Char} (h : Takes (.symbol s) text rest) :
    (text, s) ∈ Symbol.spellings ∧
      ∀ entry ∈ Symbol.spellings, entry.1 <+: text ++ rest → entry.1.length ≤ text.length := by
  cases h with
  | symbol hc h => exact ⟨List.mem_of_find?_eq_some h, length_le_of_symbol? h⟩
  | number hc h =>
    rcases number_kind h with ⟨_, hkind⟩ | ⟨_, hkind⟩ <;> cases hkind

end Lexer

open Lexer

theorem toList_join_texts (ts : List Token) :
    (String.join (ts.map Token.text)).toList = ts.flatMap fun t => t.text.toList := by
  rw [String.toList_join, List.flatMap_map]

theorem utf8ByteSize_ofList (cs : List Char) : (String.ofList cs).utf8ByteSize = byteLength cs := by
  induction cs with
  | nil => rfl
  | cons c cs ih =>
    rw [byteLength_cons, ← ih]
    simp

/-- Tokenizing loses nothing and takes the longest operators: the texts of the tokens joined are the
source, none of them is empty, each token starts where the texts before it end, no two blank tokens
are next to each other, and each operator is a spelling in the table that no spelling which begins the
source from there on is longer than. -/
theorem tokenize_covers {source : String} {ts : List Token} (h : tokenize source = .ok ts) :
    String.join (ts.map Token.text) = source ∧
    (∀ t ∈ ts, t.text ≠ "") ∧
    (∀ before t after, ts = before ++ t :: after →
      t.offset = (String.join (before.map Token.text)).utf8ByteSize) ∧
    (∀ before t u after, ts = before ++ t :: u :: after →
      ¬ (t.kind = .whitespace ∧ u.kind = .whitespace)) ∧
    ∀ before t after s, ts = before ++ t :: after → t.kind = .symbol s →
      (t.text.toList, s) ∈ Symbol.spellings ∧
      ∀ entry ∈ Symbol.spellings,
        entry.1 <+: (String.join ((t :: after).map Token.text)).toList →
          entry.1.length ≤ t.text.toList.length := by
  have hdivided := divided_of_tokensFrom (ok_of_mapError h)
  have htakes {before after : List Token} {t : Token} (hts : ts = before ++ t :: after) :=
    (hts ▸ hdivided).takes
  refine ⟨?_, ?_, ?_, ?_, ?_⟩
  · rw [← String.toList_inj, toList_join_texts]
    exact flatMap_text_of_divided hdivided
  · intro t ht hempty
    obtain ⟨before, after, hts⟩ := List.append_of_mem ht
    exact (htakes hts).1.ne_nil (by rw [hempty]; rfl)
  · intro before t after hts
    rw [(htakes hts).2, ← String.ofList_toList (s := String.join _), utf8ByteSize_ofList,
      toList_join_texts, Nat.zero_add]
  · rintro before t u after hts ⟨ht, hu⟩
    have hhead := (htakes hts).1
    have hsplit : ts = (before ++ [t]) ++ u :: after := by rw [hts, List.append_cons]
    have hnext := (htakes hsplit).1
    rw [ht] at hhead
    rw [hu] at hnext
    obtain ⟨c, tail, htext⟩ := List.exists_cons_of_ne_nil hnext.ne_nil
    have hblank := hnext.blank.1 c (by rw [htext]; exact List.mem_cons_self)
    have hother := hhead.blank.2 c (by rw [List.flatMap_cons, htext]; rfl)
    rw [hblank] at hother
    cases hother
  · intro before t after s hts hs
    have hsymbol := (htakes hts).1
    rw [hs] at hsymbol
    obtain ⟨hmem, hlongest⟩ := hsymbol.longest
    refine ⟨hmem, fun entry hentry hprefix => hlongest entry hentry ?_⟩
    rw [toList_join_texts, List.flatMap_cons] at hprefix
    exact hprefix

/-- Letters outside of ASCII, and operators with more than one reading. -/
theorem tokenize_covers_operators :
    let source := "é  ..*x!==f(2)"
    let ts : List Token := [⟨.name "é", 0, "é"⟩, ⟨.whitespace, 2, "  "⟩,
      ⟨.symbol .dotDotStar, 4, "..*"⟩, ⟨.name "x", 7, "x"⟩, ⟨.symbol .notSame, 8, "!=="⟩,
      ⟨.function "f", 11, "f("⟩, ⟨.integer 2, 13, "2"⟩, ⟨.symbol .rightParen, 14, ")"⟩]
    tokenize source = .ok ts ∧ String.join (ts.map Token.text) = source ∧
      ∀ entry ∈ Symbol.spellings,
        entry.1 <+: (String.join ((ts.drop 4).map Token.text)).toList → entry.1.length ≤ 3 := by
  intro source ts
  have h : tokenize source = .ok ts := by decide +kernel
  obtain ⟨htext, _, _, _, hlongest⟩ := tokenize_covers h
  exact ⟨h, htext, (hlongest (ts.take 4) _ (ts.drop 5) .notSame rfl rfl).2⟩

end PathQuery
