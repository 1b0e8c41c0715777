import PathQuery.Proofs.Number.Packing

/-!
# Reading a decimal as the nearest double

Whichever of its two ways the library takes to multiply digits with a power of ten, the double it
returns is the one that covers the exact number.
-/

namespace PathQuery
namespace Binary64

open Float.Model (Format UnpackedFloat)
open Float.Model.UnpackedFloat

/-! ### Exact doubles -/

/-- The double is exactly this positive number, with a significand of 53 bits. -/
structure Exactly (r : Float) (q : ℚ) (x : Binary64) : Prop where
  ofFloat? : Binary64.ofFloat? r = some x
  positive : x.negative = false
  normal : 2 ^ 52 ≤ x.significand
  value : (x.significand : ℚ) * 2 ^ x.exponent = q

theorem Exactly.unpack {r : Float} {q : ℚ} {x : Binary64} (h : Exactly r q x) :
    r.toModel.unpack = .finite .positive x.significand x.exponent
      (Nat.lt_of_lt_of_le (by decide) h.normal) := by
  have hpos : x.significand ≠ 0 := by
    have := h.normal
    omega
  rw [unpack_of_ofFloat? h.ofFloat?, unpacked, dif_neg hpos, sign, h.positive]
  rfl

theorem covers_self (x : Binary64) : x.Covers (x.significand * 2 ^ x.exponent) := by
  have hunit : (0 : ℚ) < 2 ^ x.exponent := by positivity
  have hbelow := below_pos x
  have hlow : ((x.significand : ℚ) - x.below) * 2 ^ x.exponent <
      x.significand * 2 ^ x.exponent := by
    apply mul_lt_mul_of_pos_right _ hunit
    linarith
  have hhigh : (x.significand : ℚ) * 2 ^ x.exponent <
      (x.significand + 1 / 2) * 2 ^ x.exponent := by
    apply mul_lt_mul_of_pos_right _ hunit
    linarith
  exact ⟨hlow.le, hhigh.le, fun _ => ⟨hlow, hhigh⟩⟩

/-- The double of a natural number of at most 53 bits. -/
def scaled (m : Nat) : Binary64 := ⟨false, m <<< (52 - m.log2), -((52 - m.log2 : Nat) : Int)⟩

section

variable {m : Nat} (hm : 0 < m) (hlt : m < 2 ^ 53)
include hm hlt

theorem log2_le : m.log2 ≤ 52 := by
  have := (Nat.log2_lt hm.ne').mpr hlt
  omega

theorem scaled_normal : 2 ^ 52 ≤ (scaled m).significand := by
  have hlog := log2_le hm hlt
  calc 2 ^ 52 = 2 ^ m.log2 * 2 ^ (52 - m.log2) := by
        rw [← Nat.pow_add]
        congr 1
        omega
    _ ≤ m * 2 ^ (52 - m.log2) := Nat.mul_le_mul_right _ (Nat.log2_self_le hm.ne')
    _ = (scaled m).significand := (Nat.shiftLeft_eq m _).symm

theorem scaled_canonical : (scaled m).Canonical := by
  have hlog := log2_le hm hlt
  refine ⟨?_, by simp only [scaled]; omega, .inl (scaled_normal hm hlt)⟩
  calc (scaled m).significand = m * 2 ^ (52 - m.log2) := Nat.shiftLeft_eq m _
    _ < 2 ^ (m.log2 + 1) * 2 ^ (52 - m.log2) := by
      apply Nat.mul_lt_mul_of_pos_right Nat.lt_log2_self
      positivity
    _ = 2 ^ 53 := by
      rw [← Nat.pow_add]
      congr 1
      omega

omit hm hlt in
theorem scaled_value : ((scaled m).significand : ℚ) * 2 ^ (scaled m).exponent = m := by
  simp only [scaled, Nat.shiftLeft_eq]
  rw [zpow_neg, zpow_natCast]
  push_cast
  field_simp

theorem ofUInt64_eq_scaled : UnpackedFloat.ofUInt64 .binary64 m.toUInt64 = (scaled m).unpacked := by
  have hlog := log2_le hm hlt
  have hnormal := scaled_normal hm hlt
  have hx := scaled_canonical hm hlt
  have hpos : 0 < (scaled m).significand := by omega
  have htoNat : m.toUInt64.toNat = m := by
    simp
    omega
  have hcompare : compare (m : Int) 0 = .gt := by
    rw [Int.compare_eq_gt]
    omega
  have htarget : Format.binary64.targetExponent (Float.Model.totalExponent m 0) =
      (scaled m).exponent := by
    rw [targetExponent_eq]
    simp only [scaled]
    omega
  have hlog' : (scaled m).significand.log2 = 52 := by
    have hlt := (Nat.log2_lt (by omega)).mpr hx.significand_lt
    have hge := (Nat.le_log2 (n := (scaled m).significand) (by omega)).mpr hnormal
    omega
  have hshift : (0 - (scaled m).exponent).toNat = 52 - m.log2 := by
    simp only [scaled]
    omega
  have hexponent : (0 : Int) - ((52 - m.log2 : Nat) : Int) = (scaled m).exponent := by
    simp only [scaled]
    omega
  rw [unpacked, dif_neg hpos.ne']
  simp only [UnpackedFloat.ofUInt64, UnpackedFloat.ofNat, UnpackedFloat.ofInt,
    UnpackedFloat.normalize, htoNat, hcompare, UnpackedFloat.round, Int.toNat_natCast, htarget,
    decreaseExponent, hshift, hexponent]
  change roundWithAccuracy .binary64 .positive (scaled m).significand (scaled m).exponent .exact = _
  refine roundWithAccuracy_of_describes hx hpos (covers_self _) ?_ ?_ fun hzero => ?_
  · have hunit : (2 : ℚ) ^ (scaled m).exponent ≠ 0 := by positivity
    rw [mul_div_cancel_right₀ _ hunit]
    exact describes_exact _
  · rw [hlog']
    omega
  · omega

theorem exactly_ofNat : Exactly m.toUInt64.toFloat m (scaled m) := by
  refine ⟨?_, rfl, scaled_normal hm hlt, scaled_value⟩
  change ofFloat? (.ofModel (.pack (UnpackedFloat.ofUInt64 .binary64 m.toUInt64))) = _
  rw [ofUInt64_eq_scaled hm hlt]
  exact ofFloat?_pack (scaled_canonical hm hlt) (by simp only [scaled]; omega)

end

def isPowerOfTen (r : Float) (e : Nat) : Bool :=
  (ofFloat? r).any fun x => !x.negative && decide (2 ^ 52 ≤ x.significand) &&
    decide (x.significand * 2 ^ x.exponent.toNat = 10 ^ e * 2 ^ (-x.exponent).toNat)

theorem exists_exactly_of_isPowerOfTen {r : Float} {e : Nat} (h : isPowerOfTen r e = true) :
    ∃ x, Exactly r (10 ^ e) x := by
  obtain ⟨x, hx, hparts⟩ := (Option.any_eq_true _ _).mp h
  simp only [Bool.and_eq_true, Bool.not_eq_true', decide_eq_true_eq] at hparts
  obtain ⟨⟨hpositive, hnormal⟩, hvalue⟩ := hparts
  refine ⟨x, hx, hpositive, hnormal, ?_⟩
  have hcast : (x.significand : ℚ) * 2 ^ x.exponent.toNat = 10 ^ e * 2 ^ (-x.exponent).toNat := by
    exact_mod_cast hvalue
  have hunit : (2 : ℚ) ^ (-x.exponent).toNat ≠ 0 := by positivity
  apply mul_right_cancel₀ hunit
  rw [mul_assoc, ← pow_toNat (by norm_num), hcast]

theorem isPowerOfTen_table : ∀ e (_ : e < Float.exactlyRepresentablePowersOfTen.size),
    isPowerOfTen Float.exactlyRepresentablePowersOfTen[e] e = true := by
  decide +kernel

/-! ### Digits and a power of ten -/

section

variable {x : Binary64} (hx : x.Canonical) (hfinite : x.exponent ≤ 971)
  (hpos : 0 < x.significand) {v : ℚ} (hv : x.Covers v)

include hx hfinite hv in
theorem Covers.lt_two_pow : v < 2 ^ (1024 : Int) := by
  have hunit : (0 : ℚ) < 2 ^ x.exponent := by positivity
  have hlt : (x.significand : ℚ) + 1 ≤ 2 ^ 53 := by exact_mod_cast hx.significand_lt
  calc v ≤ (x.significand + 1 / 2) * 2 ^ x.exponent := hv.high
    _ < 2 ^ 53 * 2 ^ x.exponent := by
      apply mul_lt_mul_of_pos_right _ hunit
      linarith
    _ ≤ 2 ^ 53 * 2 ^ (971 : Int) := by
      gcongr
      norm_num
    _ = 2 ^ (1024 : Int) := by
      rw [← zpow_natCast, ← zpow_add₀ (by norm_num)]
      rfl

include hx hpos hv in
theorem Covers.two_pow_le : (2 : ℚ) ^ (-1075 : Int) ≤ v := by
  have hbelow := below_le x
  have hone : (1 : ℚ) ≤ x.significand := by exact_mod_cast hpos
  have hhalf : (1 : ℚ) / 2 ≤ x.significand - x.below := by linarith
  calc (2 : ℚ) ^ (-1075 : Int) = 1 / 2 * 2 ^ (-1074 : Int) := by
        rw [show (1 / 2 : ℚ) = 2 ^ (-1 : Int) by norm_num, ← zpow_add₀ (by norm_num)]
        rfl
    _ ≤ (x.significand - x.below) * 2 ^ x.exponent := by
      gcongr
      · norm_num
      · exact hx.le_exponent
    _ ≤ v := hv.low

theorem two_zpow_le_ten_zpow {e : Int} (he : 0 ≤ e) : (2 : ℚ) ^ (3 * e) ≤ 10 ^ e := by
  rw [zpow_mul]
  exact zpow_le_zpow_left₀ he (by norm_num) (by norm_num)

theorem ten_zpow_le_two_zpow {e : Int} (he : e ≤ 0) : (10 : ℚ) ^ e ≤ 2 ^ (3 * e) := by
  have hle := two_zpow_le_ten_zpow (e := -e) (by omega)
  rw [mul_neg, zpow_neg, zpow_neg] at hle
  exact (inv_le_inv₀ (by positivity) (by positivity)).mp hle

include hx hfinite in
/-- Digits that a double covers have no exponent that the model takes for an infinity. -/
theorem Covers.exponent_le {m : Nat} {e : Int} (hm : 0 < m) (hv : x.Covers ((m : ℚ) * 10 ^ e)) :
    ¬ e > 2 ^ Format.binary64.exponentBits := by
  intro hlt
  have hlt : (2048 : Int) < e := hlt
  have hmcast : (1 : ℚ) ≤ m := by exact_mod_cast hm
  have hpow : (2 : ℚ) ^ (3 * e) < 2 ^ (1024 : Int) := by
    calc (2 : ℚ) ^ (3 * e) ≤ 10 ^ e := two_zpow_le_ten_zpow (by omega)
      _ ≤ m * 10 ^ e := le_mul_of_one_le_left (by positivity) hmcast
      _ < 2 ^ (1024 : Int) := hv.lt_two_pow hx hfinite
  have := zpow_lt_zpow_two hpow
  omega

include hx hpos in
/-- Digits that a double covers have no exponent that the model takes for a zero. -/
theorem Covers.le_exponent {m : Nat} {e : Int} (hv : x.Covers ((m : ℚ) * 10 ^ e)) :
    ¬ e < -((2 ^ Format.binary64.exponentBits : Int) + m.log2) := by
  intro hlt
  have hlt : e < -((2048 : Int) + m.log2) := hlt
  have hpow : (2 : ℚ) ^ (-1075 : Int) < 2 ^ (m.log2 + 1 + 3 * e : Int) := by
    calc (2 : ℚ) ^ (-1075 : Int) ≤ m * 10 ^ e := hv.two_pow_le hx hpos
      _ < 2 ^ (m.log2 + 1 : Int) * 10 ^ e := by
        apply mul_lt_mul_of_pos_right (lt_two_pow_log2 m)
        positivity
      _ ≤ 2 ^ (m.log2 + 1 : Int) * 2 ^ (3 * e) := by
        gcongr
        exact ten_zpow_le_two_zpow (by omega)
      _ = 2 ^ (m.log2 + 1 + 3 * e : Int) := (zpow_add₀ (by norm_num) _ _).symm
  have := zpow_lt_zpow_two hpow
  omega

include hx hfinite in
theorem ofScientific_of_covers {m : Nat} {e : Int} (hm : 0 < m)
    (hv : x.Covers ((m : ℚ) * 10 ^ e)) :
    UnpackedFloat.ofScientific .binary64 m e =
      .finite .positive x.significand x.exponent hpos := by
  unfold UnpackedFloat.ofScientific
  rw [dif_neg hm.ne', if_neg (hv.exponent_le hx hfinite hm), if_neg (hv.le_exponent hx hpos)]
  by_cases he : 0 ≤ e
  · rw [if_pos he]
    have hbits : Format.binary64.mantissaBits = 53 := rfl
    refine mul_of_covers hx hpos _ _ ?_ ?_
    · rw [hbits, Nat.shiftLeft_eq]
      have hten : 0 < 10 ^ e.toNat := by positivity
      calc 2 ^ 52 ≤ 1 * 2 ^ 53 * 1 := by norm_num
        _ ≤ m * 2 ^ 53 * 10 ^ e.toNat := by gcongr <;> omega
    · have hvalue : (((m <<< Format.binary64.mantissaBits : Nat) : ℚ) *
          2 ^ (-(Format.binary64.mantissaBits : Int)) * ((10 ^ e.toNat : Nat) * 2 ^ (0 : Int))) =
          m * 10 ^ e := by
        have hten : (10 : ℚ) ^ e = 10 ^ e.toNat := by
          rw [← zpow_natCast, Int.toNat_of_nonneg he]
        rw [hbits, Nat.shiftLeft_eq, hten, zpow_neg, zpow_natCast]
        push_cast
        field_simp
        norm_num
      rw [hvalue]
      exact hv
  · rw [if_neg he]
    refine div_of_covers hx hpos _ _ ?_
    have hvalue : ((m : ℚ) * 2 ^ (0 : Int) / ((10 ^ (-e).toNat : Nat) * 2 ^ (0 : Int))) =
        m * 10 ^ e := by
      have hten : (10 : ℚ) ^ e = (10 ^ (-e).toNat)⁻¹ := by
        rw [← zpow_natCast, ← zpow_neg, Int.toNat_of_nonneg (by omega), Int.neg_neg]
      rw [hten]
      push_cast
      field_simp
    rw [hvalue]
    exact hv

include hx hfinite in
/-- The library's product of digits and a power of ten, by either of its ways. -/
theorem floatOfScientific_of_covers {m : Nat} {s : Bool} {e : Nat} (hm : 0 < m)
    (hv : x.Covers ((m : ℚ) * 10 ^ (if s then -(e : Int) else e))) :
    Float.ofScientific m s e =
      .ofModel (.pack (.finite .positive x.significand x.exponent hpos)) := by
  unfold Float.ofScientific
  split
  · next hfast =>
    -- digits and power are exact doubles, so one rounding is all there is
    have hbound : e < Float.exactlyRepresentablePowersOfTen.size := by
      simp [Float.exactlyRepresentablePowersOfTen]
      omega
    obtain ⟨y, hpower⟩ := exists_exactly_of_isPowerOfTen (isPowerOfTen_table e hbound)
    have hexact := exactly_ofNat hm hfast.1
    have hnormal := hexact.normal
    have hnormal' := hpower.normal
    have hmodel : m.toUInt64.toFloat.toModel.unpack = _ := hexact.unpack
    have hmodel' : Float.exactlyRepresentablePowersOfTen[e].toModel.unpack = _ := hpower.unpack
    cases s with
    | true =>
      simp only [if_true] at hv
      change Float.ofModel (.pack (UnpackedFloat.div .binary64 _ _)) = _
      rw [hmodel, hmodel', div_of_covers hx hpos]
      rw [hexact.value, hpower.value]
      rw [zpow_neg, zpow_natCast, ← div_eq_mul_inv] at hv
      exact hv
    | false =>
      simp only [Bool.false_eq_true, if_false] at hv
      change Float.ofModel (.pack (UnpackedFloat.mul .binary64 _ _)) = _
      rw [hmodel, hmodel', mul_of_covers hx hpos]
      · exact Nat.le_trans hnormal (Nat.le_mul_of_pos_right _ (by omega))
      · rw [hexact.value, hpower.value]
        rw [zpow_natCast] at hv
        exact hv
  · have hsign : (if s then Int.negOfNat e else Int.ofNat e) = if s then -(e : Int) else e := by
      cases s with
      | true => exact Int.negOfNat_eq
      | false => rfl
    simp only [hsign]
    rw [Float.Model.ofScientific, ofScientific_of_covers hx hfinite hpos hm hv]

end

end Binary64

namespace Decimal

def value (d : Decimal) : ℚ := d.digits * 10 ^ d.exponent

theorem lt_ten_pow_width (n : Nat) : n < 10 ^ width n :=
  (Nat.length_toDigits_le_iff (by decide) Nat.length_toDigits_pos).mp (Nat.le_refl _)

theorem ten_pow_width_le {n : Nat} (hn : 0 < n) : 10 ^ (width n - 1) ≤ n := by
  by_cases hone : width n = 1
  · rw [hone]
    exact hn
  · have hpos : 0 < width n := Nat.length_toDigits_pos
    by_contra hlt
    have hle := (Nat.length_toDigits_le_iff (b := 10) (n := n) (k := width n - 1) (by decide)
      (by omega)).mpr (by omega)
    have hwidth : width n = (Nat.toDigits 10 n).length := rfl
    omega

theorem value_lt (d : Decimal) : d.value < 10 ^ (width d.digits + d.exponent) := by
  calc d.value < 10 ^ (width d.digits : Int) * 10 ^ d.exponent := by
        unfold value
        gcongr
        rw [zpow_natCast]
        exact_mod_cast lt_ten_pow_width d.digits
    _ = 10 ^ (width d.digits + d.exponent) := (zpow_add₀ (by norm_num) _ _).symm

theorem le_value {d : Decimal} (hdigits : 0 < d.digits) :
    10 ^ ((width d.digits - 1 : Nat) + d.exponent) ≤ d.value := by
  calc (10 : ℚ) ^ ((width d.digits - 1 : Nat) + d.exponent) =
        10 ^ ((width d.digits - 1 : Nat) : Int) * 10 ^ d.exponent := zpow_add₀ (by norm_num) _ _
    _ ≤ d.value := by
      unfold value
      gcongr
      rw [zpow_natCast]
      exact_mod_cast ten_pow_width_le hdigits

section

variable {d : Decimal} {x : Binary64} (hx : x.Canonical) (hv : x.Covers d.value)
include hx hv

theorem digits_pos_of_covers (hpos : 0 < x.significand) : 0 < d.digits := by
  by_contra hzero
  have hlow := hv.two_pow_le hx hpos
  have hzero : d.digits = 0 := by omega
  rw [value, hzero, Nat.cast_zero, zero_mul] at hlow
  have : (0 : ℚ) < 2 ^ (-1075 : Int) := by positivity
  linarith

theorem not_tiny_of_covers (hpos : 0 < x.significand) :
    ¬ (width d.digits + d.exponent < -400) := by
  intro hlt
  have hpow : (2 : ℚ) ^ (-1075 : Int) < 2 ^ (3 * (-400) : Int) := by
    calc (2 : ℚ) ^ (-1075 : Int) ≤ d.value := hv.two_pow_le hx hpos
      _ < 10 ^ (width d.digits + d.exponent) := d.value_lt
      _ ≤ 10 ^ (-400 : Int) := zpow_le_zpow_right₀ (by norm_num) (by omega)
      _ ≤ 2 ^ (3 * (-400) : Int) := Binary64.ten_zpow_le_two_zpow (by omega)
  have := Binary64.zpow_lt_zpow_two hpow
  omega

theorem not_huge_of_covers (hfinite : x.exponent ≤ 971) (hdigits : 0 < d.digits) :
    ¬ 400 < width d.digits + d.exponent := by
  intro hlt
  have hpow : (2 : ℚ) ^ (3 * 400 : Int) < 2 ^ (1024 : Int) := by
    calc (2 : ℚ) ^ (3 * 400 : Int) ≤ 10 ^ (400 : Int) :=
          Binary64.two_zpow_le_ten_zpow (by omega)
      _ ≤ 10 ^ ((width d.digits - 1 : Nat) + d.exponent) :=
        zpow_le_zpow_right₀ (by norm_num) (by omega)
      _ ≤ d.value := le_value hdigits
      _ < 2 ^ (1024 : Int) := hv.lt_two_pow hx hfinite
  have := Binary64.zpow_lt_zpow_two hpow
  omega

end

/-- A decimal is read as the positive double that covers it. -/
theorem toFloat_of_covers {d : Decimal} {r : Float} {x : Binary64}
    (hr : Binary64.ofFloat? r = some x) (hpositive : x.negative = false)
    (hpos : 0 < x.significand) (hv : x.Covers d.value) : d.toFloat = r := by
  obtain ⟨hx, hfinite⟩ := Binary64.canonical_of_ofFloat? hr
  have hdigits := digits_pos_of_covers hx hv hpos
  have htiny := not_tiny_of_covers hx hv hpos
  have hhuge := not_huge_of_covers hx hv hfinite hdigits
  have hexponent : (if decide (d.exponent < 0) then -(d.exponent.natAbs : Int)
      else d.exponent.natAbs) = d.exponent := by
    by_cases hneg : d.exponent < 0
    · simp only [hneg, decide_true, if_true]
      omega
    · simp only [hneg, decide_false, Bool.false_eq_true, if_false]
      omega
  have hcovers : x.Covers ((d.digits : ℚ) * 10 ^ (if decide (d.exponent < 0) then
      -(d.exponent.natAbs : Int) else d.exponent.natAbs)) := by
    rw [hexponent]
    exact hv
  unfold toFloat
  simp only [hdigits.ne', htiny, hhuge, decide_false, Bool.or_false, Bool.false_eq_true, if_false]
  rw [Binary64.floatOfScientific_of_covers hx hfinite hpos hdigits hcovers]
  have hunpacked : x.unpacked = .finite .positive x.significand x.exponent hpos := by
    rw [Binary64.unpacked, dif_neg hpos.ne', Binary64.sign, hpositive]
    rfl
  rw [← hunpacked]
  exact Binary64.pack_unpacked hr

end Decimal
end PathQuery
