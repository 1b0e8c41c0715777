import PathQuery.Proofs.Expression.Scanning

/-!
# Scanning numerals

A numeral is digits, perhaps with a fraction and an exponent. It is scanned as one token in front of
anything that could not become a part of it, and the digits of an integer are read as that integer.
-/

namespace PathQuery

/-! ### Numerals in parts -/

def fractionText (ds : List Char) : List Char := if ds.isEmpty then [] else '.' :: ds

/-- An exponent mark with a sign or none and digits; nothing without digits. -/
def exponentText (negative : Bool) (ds : List Char) : List Char :=
  if ds.isEmpty then [] else 'e' :: ((if negative then ['-'] else []) ++ ds)

/-- The double that an unsigned numeral is read as. -/
def numeralReal (cs : List Char) : Float :=
  ((Decimal.read? cs).map Decimal.toFloat).getD (1.0 / 0.0)

/-- A numeral in parts: digits, the digits of a fraction, and an exponent. -/
structure NumberParts where
  whole : List Char
  fraction : List Char
  negative : Bool
  exponent : List Char
  whole_ne_nil : whole ≠ []
  whole_digits : ∀ c ∈ whole, c.isDigit = true
  fraction_digits : ∀ c ∈ fraction, c.isDigit = true
  exponent_digits : ∀ c ∈ exponent, c.isDigit = true

namespace NumberParts

def text (n : NumberParts) : List Char :=
  n.whole ++ (fractionText n.fraction ++ exponentText n.negative n.exponent)

def isWhole (n : NumberParts) : Bool := n.fraction.isEmpty && n.exponent.isEmpty

def token (n : NumberParts) : TokenKind :=
  if n.isWhole then ((readInt64? n.text).map .integer).getD (.real (numeralReal n.text))
  else .real (numeralReal n.text)

end NumberParts

theorem takeWhile_append_of_head {p : Char → Bool} {xs rest : List Char}
    (hxs : ∀ c ∈ xs, p c = true) (hrest : ∀ d ∈ rest.head?, p d = false) :
    (xs ++ rest).takeWhile p = xs := by
  rw [List.takeWhile_append_of_pos hxs]
  cases rest with
  | nil => simp
  | cons d ds =>
    have hd := hrest d rfl
    rw [List.takeWhile_cons_of_neg (by simp [hd]), List.append_nil]

theorem dropWhile_append_of_head {p : Char → Bool} {xs rest : List Char}
    (hxs : ∀ c ∈ xs, p c = true) (hrest : ∀ d ∈ rest.head?, p d = false) :
    (xs ++ rest).dropWhile p = rest := by
  rw [List.dropWhile_append_of_pos hxs]
  cases rest with
  | nil => rfl
  | cons d ds =>
    have hd := hrest d rfl
    rw [List.dropWhile_cons_of_neg (by simp [hd])]

/-! ### Scanning -/

namespace Lexer

/-- What may follow a numeral without becoming a part of it. -/
def EndsNumeral (rest : List Char) : Prop :=
  ∀ d ∈ rest.head?, d.isDigit = false ∧ d ≠ '.' ∧ d ≠ 'e' ∧ d ≠ 'E'

theorem fractionLength_append {ds rest : List Char} (hds : ∀ c ∈ ds, c.isDigit = true)
    (hrest : ∀ d ∈ rest.head?, d.isDigit = false ∧ d ≠ '.') :
    fractionLength (fractionText ds ++ rest) = (fractionText ds).length := by
  cases ds with
  | nil =>
    cases rest with
    | nil => rfl
    | cons d ds =>
      obtain ⟨_, hpoint⟩ := hrest d rfl
      simp only [fractionText, List.isEmpty_nil, if_true, List.nil_append]
      rw [fractionLength]
      · rfl
      · intro ds h
        exact hpoint (by injection h)
  | cons d ds =>
    have htake : (d :: ds ++ rest).takeWhile Char.isDigit = d :: ds :=
      takeWhile_append_of_head hds fun d hd => (hrest d hd).1
    simp only [fractionText, List.isEmpty_cons, Bool.false_eq_true, if_false, List.cons_append]
      at htake ⊢
    simp only [fractionLength, htake, List.isEmpty_cons, Bool.false_eq_true, if_false,
      List.length_cons]
    omega

theorem exponentLength_append (negative : Bool) {ds rest : List Char}
    (hds : ∀ c ∈ ds, c.isDigit = true)
    (hrest : ∀ d ∈ rest.head?, d.isDigit = false ∧ d ≠ 'e' ∧ d ≠ 'E') :
    exponentLength (exponentText negative ds ++ rest) = (exponentText negative ds).length := by
  cases ds with
  | nil =>
    cases rest with
    | nil => rfl
    | cons d ds =>
      obtain ⟨_, he, hE⟩ := hrest d rfl
      simp [exponentText, exponentLength, he, hE]
  | cons d ds =>
    have htake : (d :: ds ++ rest).takeWhile Char.isDigit = d :: ds :=
      takeWhile_append_of_head hds fun d hd => (hrest d hd).1
    rw [List.cons_append] at htake
    cases negative with
    | true =>
      simp [exponentText, exponentLength, isSign, htake]
      omega
    | false =>
      have hsign : isSign d = false := by
        have hd := hds d List.mem_cons_self
        cases hs : isSign d with
        | false => rfl
        | true =>
          simp only [isSign, Bool.or_eq_true, decide_eq_true_eq] at hs
          rcases hs with hs | hs <;> subst hs <;> simp at hd
      simp [exponentText, exponentLength, hsign, htake]
      omega

theorem isDigit_head_exponentText (negative : Bool) (ds rest : List Char)
    (hrest : EndsNumeral rest) :
    ∀ d ∈ (exponentText negative ds ++ rest).head?, d.isDigit = false ∧ d ≠ '.' := by
  intro d hd
  cases ds with
  | nil => exact ⟨(hrest d hd).1, (hrest d hd).2.1⟩
  | cons e es =>
    simp [exponentText] at hd
    subst hd
    decide

theorem isDigit_head_fractionText (fs : List Char) {rest : List Char}
    (hrest : ∀ d ∈ rest.head?, d.isDigit = false) :
    ∀ d ∈ (fractionText fs ++ rest).head?, d.isDigit = false := by
  intro d hd
  cases fs with
  | nil => exact hrest d hd
  | cons e es =>
    simp [fractionText] at hd
    subst hd
    decide

theorem number_append (n : NumberParts) {rest : List Char} (hrest : EndsNumeral rest) :
    number (n.text ++ rest) = (n.token, n.text.length) := by
  obtain ⟨whole, fraction, negative, exponent, hne, hwhole, hfraction, hexponent⟩ := n
  have htail := isDigit_head_exponentText negative exponent rest hrest
  have htake : (whole ++ (fractionText fraction ++
      (exponentText negative exponent ++ rest))).takeWhile Char.isDigit = whole :=
    takeWhile_append_of_head hwhole (isDigit_head_fractionText fraction fun d hd => (htail d hd).1)
  have hf := fractionLength_append hfraction htail
  have he : exponentLength (exponentText negative exponent ++ rest) =
      (exponentText negative exponent).length :=
    exponentLength_append negative hexponent fun d hd => ⟨(hrest d hd).1, (hrest d hd).2.2⟩
  have hzero : ((fractionText fraction).length = 0 ∧ (exponentText negative exponent).length = 0) ↔
      (fraction.isEmpty && exponent.isEmpty) = true := by
    cases fraction <;> cases exponent <;> simp [fractionText, exponentText]
  have htext : (whole ++ (fractionText fraction ++ (exponentText negative exponent ++ rest))).take
      (whole.length + (fractionText fraction).length + (exponentText negative exponent).length) =
      whole ++ (fractionText fraction ++ exponentText negative exponent) := by
    rw [← List.append_assoc, ← List.append_assoc, List.append_assoc whole]
    exact List.take_left' (by simp only [List.length_append]; omega)
  simp only [NumberParts.text, List.append_assoc, number, htake, List.drop_left, ← List.drop_drop,
    hf, he, htext]
  simp only [hzero]
  by_cases hw : (fraction.isEmpty && exponent.isEmpty) = true
  · simp [NumberParts.token, NumberParts.text, NumberParts.isWhole, numeralReal, hw, Nat.add_assoc]
  · simp [NumberParts.token, NumberParts.text, NumberParts.isWhole, numeralReal, hw, Nat.add_assoc]

theorem scan_numeral (n : NumberParts) {c : Char} {tail rest : List Char}
    (htext : n.text = c :: tail) (hrest : EndsNumeral rest) (offset : Nat) :
    scan offset c (tail ++ rest) =
      .ok (n.token, tail.length) := by
  have hdigit : c.isDigit = true := by
    obtain ⟨d, ds, hwhole⟩ := List.exists_cons_of_ne_nil n.whole_ne_nil
    have hc : c = d := by
      rw [NumberParts.text, hwhole, List.cons_append] at htext
      injection htext with hc
      exact hc.symm
    rw [hc]
    exact n.whole_digits d (by rw [hwhole]; exact List.mem_cons_self)
  have hnumber := number_append n hrest
  rw [htext, List.cons_append] at hnumber
  rw [scan_digit offset _ hdigit, hnumber, List.length_cons, Nat.add_sub_cancel]

end Lexer

/-! ### Reading -/

theorem Decimal.splitSign_of_isDigit {c : Char} (hc : c.isDigit = true) (cs : List Char) :
    Decimal.splitSign (c :: cs) = (false, c :: cs) := by
  rw [Decimal.splitSign]
  · intro ds h
    injection h with h
    subst h
    simp at hc
  · intro ds h
    injection h with h
    subst h
    simp at hc

namespace NumberParts

def decimal (n : NumberParts) : Decimal where
  digits := Decimal.digitsValue (n.whole ++ n.fraction)
  exponent := (if n.negative then -(Decimal.digitsValue n.exponent : Int)
    else Decimal.digitsValue n.exponent) - n.fraction.length

theorem readExponent?_exponentText (negative : Bool) {ds : List Char}
    (hds : ∀ c ∈ ds, c.isDigit = true) :
    Decimal.readExponent? (exponentText negative ds) =
      some (if negative then -(Decimal.digitsValue ds : Int) else Decimal.digitsValue ds) := by
  cases ds with
  | nil => cases negative <;> rfl
  | cons d ds =>
    have hsplit : Decimal.splitSign ((if negative then ['-'] else []) ++ d :: ds) =
        (negative, d :: ds) := by
      cases negative with
      | true => rfl
      | false => exact Decimal.splitSign_of_isDigit (hds d List.mem_cons_self) ds
    have hall : (d :: ds).all Char.isDigit = true := List.all_eq_true.mpr hds
    simp only [exponentText, List.isEmpty_cons, Bool.false_eq_true, if_false,
      Decimal.readExponent?, true_or, if_true, hsplit, hall, Bool.not_true, Bool.or_false]

theorem read?_text (n : NumberParts) : Decimal.read? n.text = some n.decimal := by
  obtain ⟨whole, fraction, negative, exponent, hne, hwhole, hfraction, hexponent⟩ := n
  have hexponentHead : ∀ d ∈ (exponentText negative exponent).head?,
      d.isDigit = false ∧ d ≠ '.' := by
    have hhead := Lexer.isDigit_head_exponentText negative exponent [] (by simp [Lexer.EndsNumeral])
    rwa [List.append_nil] at hhead
  have hends : ∀ d ∈ (exponentText negative exponent).head?, d.isDigit = false :=
    fun d hd => (hexponentHead d hd).1
  have hfractionHead := Lexer.isDigit_head_fractionText fraction hends
  have htake := takeWhile_append_of_head hwhole hfractionHead
  have hdrop := dropWhile_append_of_head hwhole hfractionHead
  have hreadExponent := readExponent?_exponentText negative hexponent
  have hnonempty : whole.isEmpty = false := List.isEmpty_eq_false_iff.mpr hne
  simp only [Decimal.read?, text, htake, hdrop, hnonempty, Bool.false_and, Bool.false_eq_true,
    if_false, decimal]
  cases fraction with
  | nil =>
    simp only [fractionText, List.isEmpty_nil, if_true, List.nil_append]
    split
    · next ds heq =>
      have hpoint := (hexponentHead '.' (by rw [heq]; rfl)).2
      exact absurd rfl hpoint
    · rw [hreadExponent]
      rfl
  | cons d ds =>
    have htakeFraction := takeWhile_append_of_head hfraction hends
    have hdropFraction := dropWhile_append_of_head hfraction hends
    simp only [fractionText, List.isEmpty_cons, Bool.false_eq_true, if_false, List.cons_append]
      at htakeFraction hdropFraction ⊢
    rw [htakeFraction, hdropFraction, hreadExponent]
    rfl

theorem numeralReal_text (n : NumberParts) : numeralReal n.text = n.decimal.toFloat := by
  rw [numeralReal, read?_text]
  rfl

end NumberParts

/-! ### Integers -/

def NumberParts.ofNat (n : Nat) : NumberParts where
  whole := Nat.toDigits 10 n
  fraction := []
  negative := false
  exponent := []
  whole_ne_nil := Nat.toDigits_ne_nil
  whole_digits _ hc := Nat.isDigit_of_mem_toDigits (by decide) (by decide) hc
  fraction_digits _ hc := absurd hc List.not_mem_nil
  exponent_digits _ hc := absurd hc List.not_mem_nil

theorem NumberParts.text_ofNat (n : Nat) : (NumberParts.ofNat n).text = Nat.toDigits 10 n := by
  simp [NumberParts.text, NumberParts.ofNat, fractionText, exponentText]

theorem Decimal.digitsValue_eq (ds : List Char) :
    Decimal.digitsValue ds = Nat.ofDigitChars 10 ds 0 := by
  rw [Decimal.digitsValue, Nat.ofDigitChars_eq_foldl]
  simp only [Nat.mul_comm]

theorem toInt_of_readInt64? {c : Char} (hc : c.isDigit = true) {cs : List Char} {i : Int64}
    (h : readInt64? (c :: cs) = some i) : 0 ≤ i.toInt := by
  rw [readInt64?, Decimal.splitSign_of_isDigit hc] at h
  simp only at h
  split at h
  · cases h
  · have hi := fitInt64?_eq_some_iff.mp h
    rw [hi]
    exact Int.natCast_nonneg _

theorem readInt64?_toDigits {n : Nat} (hn : n < 0x8000000000000000) :
    readInt64? (Nat.toDigits 10 n) = some (Int64.ofInt n) := by
  have hdigits : ∀ c ∈ Nat.toDigits 10 n, c.isDigit = true := fun c hc =>
    Nat.isDigit_of_mem_toDigits (by decide) (by decide) hc
  have hvalue : Decimal.digitsValue (Nat.toDigits 10 n) = n := by
    rw [Decimal.digitsValue_eq, Nat.ofDigitChars_ten_toDigits]
  have hfit : fitInt64? (n : Int) = some (Int64.ofInt n) := by
    rw [fitInt64?, if_pos (by omega)]
  have hall : (Nat.toDigits 10 n).all Char.isDigit = true := List.all_eq_true.mpr hdigits
  obtain ⟨c, cs, hcs⟩ := List.exists_cons_of_ne_nil (Nat.toDigits_ne_nil (n := n) (b := 10))
  have hc : c.isDigit = true := hdigits c (by rw [hcs]; exact List.mem_cons_self)
  have hsplit : Decimal.splitSign (Nat.toDigits 10 n) = (false, Nat.toDigits 10 n) := by
    rw [hcs]
    exact Decimal.splitSign_of_isDigit hc cs
  rw [readInt64?, hsplit]
  simp [hall, hvalue, hfit]

theorem NumberParts.token_ofNat {n : Nat} (hn : n < 0x8000000000000000) :
    (NumberParts.ofNat n).token = .integer (Int64.ofInt n) := by
  have hwhole : (NumberParts.ofNat n).isWhole = true := rfl
  rw [NumberParts.token, if_pos hwhole, NumberParts.text_ofNat, readInt64?_toDigits hn]
  rfl

/-! ### Reals -/

theorem isDigit_zeros {n : Nat} : ∀ c ∈ RealStyle.zeros n, c.isDigit = true := by
  intro c hc
  rw [(List.mem_replicate.mp hc).2]
  rfl

theorem isDigit_append {xs ys : List Char} (hxs : ∀ c ∈ xs, c.isDigit = true)
    (hys : ∀ c ∈ ys, c.isDigit = true) : ∀ c ∈ xs ++ ys, c.isDigit = true := by
  intro c hc
  rcases List.mem_append.mp hc with hc | hc
  · exact hxs c hc
  · exact hys c hc

theorem digitsValue_zeros_append (n : Nat) (ds : List Char) :
    Decimal.digitsValue (RealStyle.zeros n ++ ds) = Decimal.digitsValue ds := by
  simp only [Decimal.digitsValue_eq, RealStyle.zeros, Nat.ofDigitChars_append,
    Nat.ofDigitChars_replicate_zero, Nat.mul_zero]

theorem digitsValue_append_zeros (n : Nat) (ds : List Char) :
    Decimal.digitsValue (ds ++ RealStyle.zeros n) = Decimal.digitsValue ds * 10 ^ n := by
  simp only [Decimal.digitsValue_eq, RealStyle.zeros, Nat.ofDigitChars_append,
    Nat.ofDigitChars_replicate_zero, Nat.mul_comm]

section

variable {ds : List Char} (hne : ds ≠ []) (hds : ∀ c ∈ ds, c.isDigit = true)
include hne hds

/-- Digits with a point where the exponent puts it are a numeral that is told from an integer. -/
theorem exists_parts_plainText (e : Int) :
    ∃ (n : NumberParts) (z : Nat), n.text = RealStyle.literal.plainText ds e ∧
      n.isWhole = false ∧ n.decimal = ⟨Decimal.digitsValue ds * 10 ^ z, e - z⟩ := by
  simp only [RealStyle.literal, RealStyle.plainText]
  split
  · -- the point comes after all digits, and `.0` is added
    refine ⟨⟨ds ++ RealStyle.zeros e.toNat, ['0'], false, [], by simp [hne],
      isDigit_append hds isDigit_zeros, by simp, by simp⟩, e.toNat + 1, ?_, rfl, ?_⟩
    · simp [NumberParts.text, fractionText, exponentText]
    · have hzero : ['0'] = RealStyle.zeros 1 := rfl
      simp only [NumberParts.decimal, hzero, digitsValue_append_zeros]
      rw [Nat.mul_assoc, ← Nat.pow_add]
      congr 1
      simp [Decimal.digitsValue, RealStyle.zeros]
      omega
  · next hexponent =>
    by_cases hplaces : (-e).toNat < ds.length
    · -- the point comes between two digits
      have hwhole : ds.take (ds.length - (-e).toNat) ≠ [] := by
        rw [Ne, List.take_eq_nil_iff, not_or]
        exact ⟨by omega, hne⟩
      have hfraction : ds.drop (ds.length - (-e).toNat) ≠ [] := by
        rw [Ne, List.drop_eq_nil_iff]
        omega
      refine ⟨⟨_, ds.drop (ds.length - (-e).toNat), false, [], hwhole,
        fun c hc => hds c (List.mem_of_mem_take hc),
        fun c hc => hds c (List.mem_of_mem_drop hc), by simp⟩, 0, ?_, ?_, ?_⟩
      · simp only [NumberParts.text, fractionText, exponentText, List.isEmpty_nil, if_true,
          List.isEmpty_eq_false_iff.mpr hfraction, Bool.false_eq_true, if_false, if_pos hplaces,
          List.append_nil]
      · simp only [NumberParts.isWhole, List.isEmpty_eq_false_iff.mpr hfraction, Bool.false_and]
      · simp only [NumberParts.decimal, List.take_append_drop, List.length_drop]
        simp [Decimal.digitsValue]
        omega
    · -- the point comes before all digits, with zeros between
      have hfraction : RealStyle.zeros ((-e).toNat - ds.length) ++ ds ≠ [] := by
        simp [hne]
      refine ⟨⟨['0'], RealStyle.zeros ((-e).toNat - ds.length) ++ ds, false, [],
        by simp, by simp, isDigit_append isDigit_zeros hds, by simp⟩, 0, ?_, ?_, ?_⟩
      · simp only [NumberParts.text, fractionText, exponentText, List.isEmpty_nil, if_true,
          List.isEmpty_eq_false_iff.mpr hfraction, Bool.false_eq_true, if_false, if_neg hplaces,
          List.append_nil, List.singleton_append]
      · simp only [NumberParts.isWhole, List.isEmpty_eq_false_iff.mpr hfraction, Bool.false_and]
      · have hzero : ['0'] = RealStyle.zeros 1 := rfl
        simp only [NumberParts.decimal, hzero, digitsValue_zeros_append]
        simp [Decimal.digitsValue, RealStyle.zeros]
        omega

theorem exists_parts_markedText (top : Int) :
    ∃ n : NumberParts, n.text = RealStyle.literal.markedText ds top ∧ n.isWhole = false ∧
      n.decimal = ⟨Decimal.digitsValue ds, top + 1 - ds.length⟩ := by
  simp only [RealStyle.literal, RealStyle.markedText]
  obtain ⟨c, cs, rfl⟩ := List.exists_cons_of_ne_nil hne
  refine ⟨⟨[c], cs, decide (top < 0), Nat.toDigits 10 top.natAbs, by simp,
    fun d hd => hds d (by simp_all), fun d hd => hds d (List.mem_cons_of_mem c hd),
    fun d hd => Nat.isDigit_of_mem_toDigits (by decide) (by decide) hd⟩, ?_, ?_, ?_⟩
  · cases cs <;> simp [NumberParts.text, fractionText, exponentText]
  · simp [NumberParts.isWhole]
  · have hexponent : Decimal.digitsValue (Nat.toDigits 10 top.natAbs) = top.natAbs := by
      rw [Decimal.digitsValue_eq, Nat.ofDigitChars_ten_toDigits]
    simp only [NumberParts.decimal, List.singleton_append, hexponent, decide_eq_true_eq,
      List.length_cons, Decimal.mk.injEq, true_and]
    split <;> omega

end

/-- The text of a magnitude is a numeral that is told from an integer. It stands for the same
number, perhaps with zeros added to the digits. -/
theorem exists_parts_decimalText (d : Decimal) :
    ∃ (n : NumberParts) (z : Nat), n.text = RealStyle.literal.decimalText d ∧ n.isWhole = false ∧
      n.decimal = ⟨d.digits * 10 ^ z, d.exponent - z⟩ := by
  have hne : Nat.toDigits 10 d.digits ≠ [] := Nat.toDigits_ne_nil
  have hds : ∀ c ∈ Nat.toDigits 10 d.digits, c.isDigit = true := fun c hc =>
    Nat.isDigit_of_mem_toDigits (by decide) (by decide) hc
  have hvalue : Decimal.digitsValue (Nat.toDigits 10 d.digits) = d.digits := by
    rw [Decimal.digitsValue_eq, Nat.ofDigitChars_ten_toDigits]
  have hplain := exists_parts_plainText hne hds d.exponent
  rw [hvalue] at hplain
  simp only [RealStyle.decimalText]
  split
  · split
    · exact hplain
    · obtain ⟨n, htext, hwhole, hdecimal⟩ := exists_parts_markedText hne hds
        (d.exponent + (Nat.toDigits 10 d.digits).length - 1)
      refine ⟨n, 0, htext, hwhole, ?_⟩
      rw [hdecimal, hvalue, Nat.pow_zero, Nat.mul_one]
      congr 1
      omega
  · exact hplain

end PathQuery
