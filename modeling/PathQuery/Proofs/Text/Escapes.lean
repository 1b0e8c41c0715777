import Mathlib
import PathQuery.Expression.Lexer
import PathQuery.Text.Escape

/-!
# Escapes read back

A reference is an ampersand, a name and a semicolon, and stands for a character. An escaped text is a
row of references and of other characters that stand for themselves, so it can be read back without
knowing where the characters of the original text began. What HTML escaping writes is read back as the
text itself, and what XML encoding writes as the text with its controls replaced.
-/

namespace PathQuery

/-! ### References -/

/-- What the names of references stand for. -/
abbrev Entities := List Char → Option Char

def htmlEntities : Entities := fun name =>
  [("amp".toList, '&'), ("lt".toList, '<'), ("gt".toList, '>'), ("quot".toList, '"'),
    ("#39".toList, '\'')].lookup name

/-- The references of XML: the five named ones, and characters by their hexadecimal number. -/
def xmlEntities : Entities
  | '#' :: 'x' :: d :: ds => do
    let n ← Lexer.hexNumber? (d :: ds)
    if n.isValidChar then some (Char.ofNat n) else none
  | name =>
    [("amp".toList, '&'), ("lt".toList, '<'), ("gt".toList, '>'), ("quot".toList, '"'),
      ("apos".toList, '\'')].lookup name

/-- Reads a text back; `open?` is what has been read of the name of a reference, if one has begun. A
reference that has no end or stands for nothing cannot be read. -/
def readBackFrom (entities : Entities) (open? : Option (List Char)) : List Char → Option (List Char)
  | [] => if open?.isNone then some [] else none
  | c :: cs =>
    match open? with
    | none =>
      if c = '&' then readBackFrom entities (some []) cs
      else (readBackFrom entities none cs).map (c :: ·)
    | some name =>
      if c = ';' then do
        let value ← entities name
        (readBackFrom entities none cs).map (value :: ·)
      else readBackFrom entities (some (name ++ [c])) cs

def readBack (entities : Entities) (s : String) : Option String :=
  (readBackFrom entities none s.toList).map String.ofList

/-- Every ampersand of the text begins a reference that stands for a character. -/
def BeginsReferences (entities : Entities) (text : List Char) : Prop :=
  ∀ before after, text = before ++ '&' :: after →
    ∃ name rest, after = name ++ ';' :: rest ∧ (entities name).isSome = true

/-! ### Rows of references and characters -/

/-- What may be written for a character: the character itself, or a reference that stands for it. -/
inductive Writes (entities : Entities) : List Char → Char → Prop where
  | self {c : Char} (hc : c ≠ '&') : Writes entities [c] c
  | reference {name : List Char} {c : Char} (hbegin : '&' ∉ name) (hend : ';' ∉ name)
      (h : entities name = some c) : Writes entities ('&' :: (name ++ [';'])) c

section

variable {entities : Entities} {f : Char → List Char} {g : Char → Char}

theorem Writes.named (name : String) {c : Char}
    (h : ('&' ∉ name.toList ∧ ';' ∉ name.toList) ∧ entities name.toList = some c) :
    Writes entities ('&' :: (name.toList ++ [';'])) c :=
  .reference h.1.1 h.1.2 h.2

theorem readBackFrom_name {name : List Char} {c : Char} (hend : ';' ∉ name) (read rest : List Char)
    (h : entities (read ++ name) = some c) :
    readBackFrom entities (some read) (name ++ ';' :: rest) =
      (readBackFrom entities none rest).map (c :: ·) := by
  induction name generalizing read with
  | nil =>
    rw [List.append_nil] at h
    rw [List.nil_append, readBackFrom]
    simp only [if_true, h]
    rfl
  | cons d name ih =>
    rw [List.mem_cons, not_or] at hend
    rw [List.append_cons] at h
    rw [List.cons_append, readBackFrom]
    simp only [if_neg (Ne.symm hend.1)]
    exact ih hend.2 _ h

theorem Writes.read_append {text : List Char} {c : Char} (h : Writes entities text c)
    (rest : List Char) :
    readBackFrom entities none (text ++ rest) =
      (readBackFrom entities none rest).map (c :: ·) := by
  cases h with
  | self hc =>
    rw [List.singleton_append, readBackFrom]
    simp only [if_neg hc]
  | @reference name _ hbegin hend h =>
    rw [List.cons_append, List.append_assoc, List.singleton_append, readBackFrom]
    simp only [if_true]
    exact readBackFrom_name hend [] rest h

theorem readBackFrom_flatMap (h : ∀ c, Writes entities (f c) (g c)) (cs : List Char) :
    readBackFrom entities none (cs.flatMap f) = some (cs.map g) := by
  induction cs with
  | nil => rfl
  | cons c cs ih => rw [List.flatMap_cons, (h c).read_append, ih, Option.map_some, List.map_cons]

theorem readBack_flatMap (h : ∀ c, Writes entities (f c) (g c)) (s : String) :
    readBack entities (String.ofList (s.toList.flatMap f)) = some (String.ofList (s.toList.map g)) := by
  rw [readBack, String.toList_ofList, readBackFrom_flatMap h, Option.map_some]

theorem Writes.beginsReferences {text rest : List Char} {c : Char} (h : Writes entities text c)
    (hrest : BeginsReferences entities rest) : BeginsReferences entities (text ++ rest) := by
  intro before after hsplit
  cases h with
  | self hc =>
    cases before with
    | nil => exact absurd (List.cons.inj hsplit).1 hc
    | cons d before => exact hrest before after (List.cons.inj hsplit).2
  | @reference name _ hbegin hend h =>
    rw [List.cons_append, List.append_assoc, List.singleton_append] at hsplit
    cases before with
    | nil => exact ⟨name, rest, (List.cons.inj hsplit).2.symm, by rw [h]; rfl⟩
    | cons d before =>
      rcases List.append_eq_append_iff.mp (List.cons.inj hsplit).2 with
        ⟨mid, rfl, hmid⟩ | ⟨mid, rfl, hmid⟩
      · -- the ampersand stands behind the name, so behind the semicolon
        cases mid with
        | nil => cases hmid
        | cons e mid => exact hrest mid after (List.cons.inj hmid).2
      · cases mid with
        | nil => cases hmid
        | cons e mid =>
          obtain ⟨rfl, -⟩ := List.cons.inj hmid
          exact absurd (by simp) hbegin

theorem beginsReferences_flatMap (h : ∀ c, Writes entities (f c) (g c)) (cs : List Char) :
    BeginsReferences entities (cs.flatMap f) := by
  induction cs with
  | nil => exact fun before after hsplit => by simp at hsplit
  | cons c cs ih =>
    rw [List.flatMap_cons]
    exact (h c).beginsReferences ih

end

/-! ### HTML -/

theorem htmlChar_of_not_special {c : Char} (h : isHtmlSpecial c = false) : htmlChar c = [c] := by
  simp only [isHtmlSpecial, Bool.or_eq_false_iff, decide_eq_false_iff_not] at h
  obtain ⟨⟨⟨⟨hamp, hlt⟩, hgt⟩, hquot⟩, hapos⟩ := h
  rw [htmlChar, if_neg hamp, if_neg hlt, if_neg hgt, if_neg hquot, if_neg hapos]

/-- To hand back a text as it is comes to the same as to escape it character by character. -/
theorem escapeHtml_eq (s : String) : escapeHtml s = String.ofList (s.toList.flatMap htmlChar) := by
  unfold escapeHtml
  split
  · rfl
  · next hany =>
    have hself : ∀ c ∈ s.toList, htmlChar c = [c] := fun c hc =>
      htmlChar_of_not_special (Bool.eq_false_iff.mpr fun h => hany (List.any_eq_true.mpr ⟨c, hc, h⟩))
    rw [List.flatMap_congr hself, List.flatMap_singleton', String.ofList_toList]

theorem htmlChar_writes (c : Char) : Writes htmlEntities (htmlChar c) c := by
  unfold htmlChar
  split
  · next h =>
    subst h
    exact .named "amp" (by decide)
  split
  · next h =>
    subst h
    exact .named "lt" (by decide)
  split
  · next h =>
    subst h
    exact .named "gt" (by decide)
  split
  · next h =>
    subst h
    exact .named "quot" (by decide)
  split
  · next h =>
    subst h
    exact .named "#39" (by decide)
  · next hamp _ _ _ _ => exact .self hamp

/-- Whether a character could open a tag, close one, or end an attribute in quotes. -/
def isMarkup (c : Char) : Bool := c = '<' || c = '>' || c = '"' || c = '\''

theorem isMarkup_of_mem_htmlChar {c d : Char} (h : d ∈ htmlChar c) : isMarkup d = false := by
  have hentity : ∀ {s : List Char}, (s.all fun c => !isMarkup c) = true → d ∈ s →
      isMarkup d = false := fun hs hd => by simpa using List.all_eq_true.mp hs d hd
  unfold htmlChar at h
  split at h
  · exact hentity (by decide) h
  split at h
  · exact hentity (by decide) h
  split at h
  · exact hentity (by decide) h
  split at h
  · exact hentity (by decide) h
  split at h
  · exact hentity (by decide) h
  · obtain rfl := List.mem_singleton.mp h
    simp [isMarkup, *]

theorem isMarkup_of_mem_escapeHtml {s : String} {c : Char} (h : c ∈ (escapeHtml s).toList) :
    isMarkup c = false := by
  rw [escapeHtml_eq, String.toList_ofList] at h
  obtain ⟨_, _, h⟩ := List.mem_flatMap.mp h
  exact isMarkup_of_mem_htmlChar h

/-! ### XML -/

theorem exists_digit_of_mem_toDigits {n : Nat} {d : Char} (h : d ∈ Nat.toDigits 16 n) :
    ∃ k < 16, d = Nat.digitChar k := by
  induction n using Nat.strongRecOn with
  | ind n ih =>
    rw [Nat.toDigits_eq_if (by decide)] at h
    split at h
    · next hlt => exact ⟨n, hlt, List.mem_singleton.mp h⟩
    · rcases List.mem_append.mp h with h | h
      · exact ih (n / 16) (Nat.div_lt_self (by omega) (by decide)) h
      · exact ⟨n % 16, Nat.mod_lt _ (by decide), List.mem_singleton.mp h⟩

theorem hexNumber?_concat (ds : List Char) (d : Char) :
    Lexer.hexNumber? (ds ++ [d]) =
      (Lexer.hexNumber? ds).bind fun n => (Lexer.hexValue? d).map (n * 16 + ·) := by
  simp [Lexer.hexNumber?, List.foldlM_append]

theorem hexValue?_digitChar : ∀ k < 16, Lexer.hexValue? (Nat.digitChar k) = some k := by decide

theorem hexNumber?_toDigits (n : Nat) : Lexer.hexNumber? (Nat.toDigits 16 n) = some n := by
  induction n using Nat.strongRecOn with
  | ind n ih =>
    rw [Nat.toDigits_eq_if (by decide)]
    split
    · next hlt =>
      rw [← List.nil_append [n.digitChar], hexNumber?_concat, hexValue?_digitChar n hlt]
      simp [Lexer.hexNumber?]
    · next hge =>
      rw [hexNumber?_concat, ih (n / 16) (Nat.div_lt_self (by omega) (by decide)),
        hexValue?_digitChar _ (Nat.mod_lt _ (by decide)), Option.bind_some, Option.map_some]
      congr 1
      omega

theorem xmlEntities_number (c : Char) :
    xmlEntities ('#' :: 'x' :: Nat.toDigits 16 c.toNat) = some c := by
  have hnumber := hexNumber?_toDigits c.toNat
  obtain ⟨d, ds, hdigits⟩ := List.exists_cons_of_ne_nil (Nat.toDigits_ne_nil (n := c.toNat) (b := 16))
  rw [hdigits] at hnumber ⊢
  have hvalid : c.toNat.isValidChar := c.valid
  simp [xmlEntities, hnumber, hvalid]

theorem not_mem_toDigits {d : Char} (hd : ∀ k < 16, Nat.digitChar k ≠ d) (n : Nat) :
    d ∉ Nat.toDigits 16 n := by
  intro h
  obtain ⟨k, hk, rfl⟩ := exists_digit_of_mem_toDigits h
  exact hd k hk rfl

/-- U+FFFD for a control other than tab, line feed and return, and any other character as it is. -/
def withoutControl (c : Char) : Char :=
  if isControl c = true ∧ c ≠ '\t' ∧ c ≠ '\n' ∧ c ≠ '\r' then '\uFFFD' else c

theorem xmlChar_writes (inAttribute : Bool) (c : Char) :
    Writes xmlEntities (xmlChar inAttribute c) (withoutControl c) := by
  unfold xmlChar
  split
  · next h =>
    subst h
    exact .named "amp" (by decide)
  split
  · next h =>
    subst h
    exact .named "lt" (by decide)
  split
  · next h =>
    subst h
    exact .named "gt" (by decide)
  split
  · next h =>
    obtain rfl := of_decide_eq_true (Bool.and_eq_true_iff.mp h).2
    exact .named "quot" (by decide)
  split
  · next h =>
    obtain rfl := of_decide_eq_true (Bool.and_eq_true_iff.mp h).2
    exact .named "apos" (by decide)
  split
  · next hamp _ _ _ _ h =>
    have hself : withoutControl c = c := if_neg fun hc => by simp_all
    rw [hself]
    exact .self hamp
  next hamp _ _ _ _ hspace =>
  split
  · next h =>
    have hreplaced : withoutControl c = '\uFFFD' := if_pos ⟨h, by simpa [not_or] using hspace⟩
    rw [hreplaced]
    exact .named "#xfffd" (by decide)
  next hcontrol =>
  have hself : withoutControl c = c := if_neg fun hc => hcontrol hc.1
  rw [hself]
  split
  · have hbegin : '&' ∉ '#' :: 'x' :: Nat.toDigits 16 c.toNat := by
      simp [not_mem_toDigits (d := '&') (by decide)]
    have hend : ';' ∉ '#' :: 'x' :: Nat.toDigits 16 c.toNat := by
      simp [not_mem_toDigits (d := ';') (by decide)]
    exact .reference hbegin hend (xmlEntities_number c)
  · exact .self hamp

def isXmlOutput (inAttribute : Bool) (c : Char) : Bool :=
  c.toNat < 128 && c != '<' && c != '>' && (!inAttribute || c != '"' && c != '\'')

theorem isXmlOutput_digitChar :
    ∀ inAttribute, ∀ k < 16, isXmlOutput inAttribute (Nat.digitChar k) = true := by decide

theorem isXmlOutput_of_mem_xmlChar {inAttribute : Bool} {c d : Char}
    (h : d ∈ xmlChar inAttribute c) : isXmlOutput inAttribute d = true := by
  have hentity : ∀ {s : List Char}, (∀ b, (s.all (isXmlOutput b)) = true) → d ∈ s →
      isXmlOutput inAttribute d = true := fun hs hd => List.all_eq_true.mp (hs inAttribute) d hd
  unfold xmlChar at h
  split at h
  · exact hentity (by decide) h
  split at h
  · exact hentity (by decide) h
  split at h
  · exact hentity (by decide) h
  split at h
  · exact hentity (by decide) h
  split at h
  · exact hentity (by decide) h
  next hamp hlt hgt hquot hapos =>
  split at h
  · next hspace =>
    rcases hspace with rfl | rfl | rfl
    · exact hentity (by decide) h
    · exact hentity (by decide) h
    · exact hentity (by decide) h
  split at h
  · exact hentity (by decide) h
  split at h
  · have hmem : d ∈ ['&', '#', 'x', ';'] ∨ d ∈ Nat.toDigits 16 c.toNat := by
      simp only [List.mem_cons, List.mem_append, List.not_mem_nil, or_false] at h ⊢
      tauto
    rcases hmem with hmark | hdigit
    · exact hentity (by decide) hmark
    · obtain ⟨k, hk, rfl⟩ := exists_digit_of_mem_toDigits hdigit
      exact isXmlOutput_digitChar inAttribute k hk
  · next hascii =>
    obtain rfl := List.mem_singleton.mp h
    cases inAttribute with
    | false => simp_all [isXmlOutput]
    | true => simp_all [isXmlOutput]

/-! ### Texts -/

/-- Escaped texts have no markup left, every ampersand in them begins a reference, and they are read
back: HTML as the text itself, and XML, which is in ASCII, as the text with its controls replaced. -/
theorem escaped_readBack (s : String) (inAttribute : Bool) :
    ((∀ c ∈ (escapeHtml s).toList, c ≠ '<' ∧ c ≠ '>' ∧ c ≠ '"' ∧ c ≠ '\'') ∧
      BeginsReferences htmlEntities (escapeHtml s).toList ∧
      readBack htmlEntities (escapeHtml s) = some s) ∧
    (∀ c ∈ (encodeXml inAttribute s).toList,
      c.toNat < 128 ∧ c ≠ '<' ∧ c ≠ '>' ∧ (inAttribute = true → c ≠ '"' ∧ c ≠ '\'')) ∧
    BeginsReferences xmlEntities (encodeXml inAttribute s).toList ∧
    readBack xmlEntities (encodeXml inAttribute s) =
      some (String.ofList (s.toList.map withoutControl)) := by
  refine ⟨⟨?_, ?_, ?_⟩, ?_, ?_, ?_⟩
  · intro c hc
    have hmarkup := isMarkup_of_mem_escapeHtml hc
    simpa [isMarkup, and_assoc] using hmarkup
  · rw [escapeHtml_eq, String.toList_ofList]
    exact beginsReferences_flatMap htmlChar_writes _
  · rw [escapeHtml_eq, readBack_flatMap htmlChar_writes, List.map_id', String.ofList_toList]
  · intro c hc
    rw [encodeXml, String.toList_ofList] at hc
    obtain ⟨_, _, hc⟩ := List.mem_flatMap.mp hc
    have houtput := isXmlOutput_of_mem_xmlChar hc
    cases inAttribute with
    | false => simpa [isXmlOutput, and_assoc] using houtput
    | true => simpa [isXmlOutput, and_assoc] using houtput
  · rw [encodeXml, String.toList_ofList]
    exact beginsReferences_flatMap (xmlChar_writes inAttribute) _
  · exact readBack_flatMap (xmlChar_writes inAttribute) s

-- a text that looks escaped is escaped again, and read back once
example : escapeHtml "&lt;" = "&amp;lt;" ∧ readBack htmlEntities "&amp;lt;" = some "&lt;" ∧
    readBack xmlEntities "&#xe9;&#xfffd;" = some "é\uFFFD" ∧ readBack xmlEntities "&eacute;" = none := by
  decide +kernel

end PathQuery
