import PathQuery.Proofs.Number.Doubles

/-!
# Rounding to the nearest double

A double covers the numbers that lie nearest to it. The logical model of `Float` rounds by shifting
a mantissa to the exponent that its size calls for and keeping two bits of what was cut off; these
bits say enough about the exact number for rounding to find the double that covers it.
-/

namespace PathQuery
namespace Binary64

open Float.Model (Format totalExponent)
open Float.Model.UnpackedFloat

/-! ### Residual bits -/

/-- The number that the mantissa and the first residual bit stand for. -/
def known (em : ExtendedMantissa) : ℚ := em.mantissa + if em.roundBit then 1 / 2 else 0

/-- What a mantissa with residual bits says about the exact number that it was cut from. -/
structure Describes (em : ExtendedMantissa) (v : ℚ) : Prop where
  le : known em ≤ v
  lt : v < known em + 1 / 2
  sticky : em.stickyBit = false ↔ v = known em

theorem describes_exact (m : Nat) :
    Describes (ExtendedMantissa.ofMantissaAndAccuracy m .exact) m := by
  have hknown : known ⟨m, false, false⟩ = m := by simp [known]
  refine ⟨hknown.le, ?_, by simp only [ExtendedMantissa.ofMantissaAndAccuracy, hknown]⟩
  simp only [ExtendedMantissa.ofMantissaAndAccuracy, hknown]
  linarith

theorem describes_inexact {q : Nat} {b : Bool} {v : ℚ} (hlt : known ⟨q, b, true⟩ < v)
    (hlt' : v < known ⟨q, b, true⟩ + 1 / 2) : Describes ⟨q, b, true⟩ v :=
  ⟨hlt.le, hlt', by simp [hlt.ne']⟩

theorem describes_fraction (num : Nat) {den : Nat} (hden : 0 < den) :
    Describes (ExtendedMantissa.ofMantissaAndAccuracy (num / den)
      (accuracyOfFraction (num % den) den)) (num / den) := by
  have hpos : (0 : ℚ) < den := by exact_mod_cast hden
  have hlt : ((num % den : Nat) : ℚ) < den := by exact_mod_cast Nat.mod_lt num hden
  have hsplit : (num : ℚ) / den = (num / den : Nat) + ((num % den : Nat) : ℚ) / den := by
    field_simp
    exact_mod_cast (Nat.div_add_mod num den).symm
  generalize num / den = q at hsplit ⊢
  generalize num % den = r at hsplit hlt ⊢
  rw [hsplit]
  unfold accuracyOfFraction
  by_cases hr : r = 0
  · subst hr
    simpa using describes_exact q
  · have hrpos : (0 : ℚ) < r := by exact_mod_cast Nat.pos_of_ne_zero hr
    have hfraction : (0 : ℚ) < r / den := by positivity
    have hone : (r : ℚ) / den < 1 := (div_lt_one hpos).mpr hlt
    rw [if_neg hr]
    rcases Nat.lt_trichotomy (2 * r) den with h | h | h
    · have hhalf : (r : ℚ) / den < 1 / 2 := by
        rw [div_lt_iff₀ hpos]
        have : (2 * r : ℚ) < den := by exact_mod_cast h
        linarith
      rw [Nat.compare_eq_lt.mpr h]
      apply describes_inexact <;> simp only [known, Bool.false_eq_true, if_false] <;> linarith
    · have hhalf : (r : ℚ) / den = 1 / 2 := by
        rw [div_eq_iff hpos.ne']
        have : (2 * r : ℚ) = den := by exact_mod_cast h
        linarith
      rw [Nat.compare_eq_eq.mpr h, hhalf]
      constructor <;> simp [known, ExtendedMantissa.ofMantissaAndAccuracy]
    · have hhalf : 1 / 2 < (r : ℚ) / den := by
        rw [lt_div_iff₀ hpos]
        have : (den : ℚ) < 2 * r := by exact_mod_cast h
        linarith
      rw [Nat.compare_eq_gt.mpr h]
      apply describes_inexact <;> simp only [known, if_true] <;> linarith

theorem known_shiftRightOne (em : ExtendedMantissa) :
    known em = 2 * known em.shiftRightOne + if em.roundBit then 1 / 2 else 0 := by
  obtain ⟨m, b, s⟩ := em
  have hm : (m : ℚ) = 2 * (m / 2 : Nat) + (m % 2 : Nat) := by
    exact_mod_cast (Nat.div_add_mod m 2).symm
  simp only [known, ExtendedMantissa.shiftRightOne]
  rcases Nat.mod_two_eq_zero_or_one m with hr | hr
  · simp only [hr, bne_self_eq_false, Bool.false_eq_true, if_false, Nat.cast_zero] at hm ⊢
    linarith
  · have hbit : (1 != 0) = true := rfl
    simp only [hr, hbit, if_true, Nat.cast_one] at hm ⊢
    linarith

theorem Describes.shiftRightOne {em : ExtendedMantissa} {v : ℚ} (h : Describes em v) :
    Describes em.shiftRightOne (v / 2) := by
  obtain ⟨hle, hlt, hsticky⟩ := h
  have hknown := known_shiftRightOne em
  have hbit : em.shiftRightOne.stickyBit = (em.roundBit || em.stickyBit) := rfl
  cases hround : em.roundBit with
  | false =>
    simp only [hround, Bool.false_eq_true, if_false] at hknown
    refine ⟨by linarith, by linarith, ?_⟩
    rw [hbit, hround, Bool.false_or, hsticky]
    constructor <;> intro h <;> linarith
  | true =>
    simp only [hround, if_true] at hknown
    refine ⟨by linarith, by linarith, ?_⟩
    rw [hbit, hround, Bool.true_or]
    refine ⟨fun h => absurd h (by decide), fun h => ?_⟩
    linarith

theorem Describes.shiftRight {em : ExtendedMantissa} {v : ℚ} (h : Describes em v) (n : Nat) :
    Describes (em >>> n) (v / 2 ^ n) := by
  change Describes (n.repeat ExtendedMantissa.shiftRightOne em) _
  induction n with
  | zero => simpa [Nat.repeat] using h
  | succ n ih =>
    rw [Nat.repeat, pow_succ, ← div_div]
    exact ih.shiftRightOne

/-- Rounding finds the integer that is nearest, and the even one of two. -/
theorem Describes.roundedMantissa {em : ExtendedMantissa} {v : ℚ} (h : Describes em v) {n : Nat}
    (hlow : (n : ℚ) - 1 / 2 ≤ v) (hhigh : v ≤ n + 1 / 2)
    (htie : n % 2 = 1 → (n : ℚ) - 1 / 2 < v ∧ v < n + 1 / 2) : em.roundedMantissa = n := by
  obtain ⟨m, b, s⟩ := em
  obtain ⟨hle, hlt, hsticky⟩ := h
  have hle_of_lt : ∀ {a b : Nat}, (a : ℚ) < b + 1 → a ≤ b := fun {a b} h => by
    have : a < b + 1 := by exact_mod_cast h
    omega
  simp only [ExtendedMantissa.roundedMantissa]
  cases b <;> cases s <;>
    simp only [known, Bool.false_eq_true, if_false, if_true, add_zero, true_iff, false_iff,
      Bool.true_eq_false] at hle hlt hsticky
  · -- exactly `m`
    have hnm : n ≤ m := hle_of_lt (by linarith)
    have hmn : m ≤ n := hle_of_lt (by linarith)
    exact Nat.le_antisymm hmn hnm
  · -- nearer to `m` than to the next
    have hlt' : (m : ℚ) < v := lt_of_le_of_ne hle (Ne.symm hsticky)
    have hnm : n ≤ m := hle_of_lt (by linarith)
    have hmn : m ≤ n := hle_of_lt (by linarith)
    exact Nat.le_antisymm hmn hnm
  · -- halfway between the two
    have hnm : n ≤ m + 1 := hle_of_lt (by push_cast; linarith)
    have hmn : m ≤ n := hle_of_lt (by linarith)
    have heven : n % 2 = 0 := by
      by_contra hodd
      obtain ⟨hlow', hhigh'⟩ := htie (by omega)
      have hlt₁ : n < m + 1 := by
        have : (n : ℚ) < m + 1 := by linarith
        exact_mod_cast this
      have hlt₂ : m < n := by
        have : (m : ℚ) < n := by linarith
        exact_mod_cast this
      omega
    change m + m % 2 = n
    omega
  · -- nearer to the next
    have hlt' : (m : ℚ) + 1 / 2 < v := lt_of_le_of_ne hle (Ne.symm hsticky)
    have hnm : n ≤ m + 1 := hle_of_lt (by push_cast; linarith)
    have hmn : m < n := by
      have : (m : ℚ) < n := by linarith
      exact_mod_cast this
    change m + 1 = n
    omega

/-! ### The rounded double -/

/-- A significand and an exponent as a double has them. -/
structure Canonical (x : Binary64) : Prop where
  significand_lt : x.significand < 2 ^ 53
  le_exponent : -1074 ≤ x.exponent
  normal_or_least : 2 ^ 52 ≤ x.significand ∨ x.exponent = -1074

/-- The part of a unit by which a number below the double may differ from it. -/
def below (x : Binary64) : ℚ :=
  if x.significand = 2 ^ 52 ∧ -1074 < x.exponent then 1 / 4 else 1 / 2

theorem below_pos (x : Binary64) : 0 < x.below := by
  unfold below
  split <;> norm_num

theorem below_le (x : Binary64) : x.below ≤ 1 / 2 := by
  unfold below
  split <;> norm_num

/-- The numbers that round to a positive double. -/
structure Covers (x : Binary64) (v : ℚ) : Prop where
  low : ((x.significand : ℚ) - x.below) * 2 ^ x.exponent ≤ v
  high : v ≤ (x.significand + 1 / 2) * 2 ^ x.exponent
  tie : x.significand % 2 = 1 → ((x.significand : ℚ) - x.below) * 2 ^ x.exponent < v ∧
    v < (x.significand + 1 / 2) * 2 ^ x.exponent

theorem targetExponent_eq (m : Nat) (e : Int) :
    Format.binary64.targetExponent (totalExponent m e) = max (m.log2 + e - 52) (-1074) := by
  simp only [Format.targetExponent, totalExponent, Format.mantissaBits, Format.minExponent]
  omega

theorem shiftToTargetExponent_of_le {m : Nat} {e : Int} {a : Accuracy} {t : Int}
    (ht : Format.binary64.targetExponent (totalExponent m e) = t) (he : e ≤ t) :
    shiftToTargetExponent .binary64 m e a =
      (ExtendedMantissa.ofMantissaAndAccuracy m a >>> (t - e).toNat, t) := by
  simp only [shiftToTargetExponent, shiftToExponent, ht]
  rw [Int.toNat_of_nonneg (by omega)]
  congr 1
  omega

theorem shiftToTargetExponent_exact {r : Nat} (hr : r < 2 ^ 53) {t : Int} (ht : -1074 ≤ t) :
    shiftToTargetExponent .binary64 r t .exact = (⟨r, false, false⟩, t) := by
  have hlog : r.log2 ≤ 52 := by
    by_cases hzero : r = 0
    · subst hzero
      decide
    · have := (Nat.log2_lt hzero).mpr hr
      omega
  have hshift : (Format.binary64.targetExponent (totalExponent r t) - t).toNat = 0 := by
    rw [targetExponent_eq]
    omega
  simp only [shiftToTargetExponent, shiftToExponent, hshift]
  rw [Int.natCast_zero, Int.add_zero]
  rfl

theorem shiftToTargetExponent_carry {t : Int} (ht : -1074 ≤ t) :
    shiftToTargetExponent .binary64 (2 ^ 53) t .exact = (⟨2 ^ 52, false, false⟩, t + 1) := by
  have htarget : Format.binary64.targetExponent (totalExponent (2 ^ 53) t) = t + 1 := by
    rw [targetExponent_eq, Nat.log2_two_pow]
    omega
  have hshift : (t + 1 - t).toNat = 1 := by omega
  rw [shiftToTargetExponent_of_le htarget (by omega), hshift]
  rfl

theorem roundWithAccuracy_of_rounded {sign : Float.Model.UnpackedFloat.Sign} {m r : Nat} {e t : Int}
    {a : Accuracy} {em : ExtendedMantissa}
    (hshift : shiftToTargetExponent .binary64 m e a = (em, t)) (ht : -1074 ≤ t)
    (hrounded : em.roundedMantissa = r) (hpos : 0 < r) (hr : r < 2 ^ 53) :
    roundWithAccuracy .binary64 sign m e a = .finite sign r t hpos := by
  simp only [roundWithAccuracy, hshift, hrounded, shiftToTargetExponent_exact hr ht]
  rw [dif_neg (by omega)]

theorem roundWithAccuracy_of_carry {sign : Float.Model.UnpackedFloat.Sign} {m : Nat} {e t : Int}
    {a : Accuracy} {em : ExtendedMantissa}
    (hshift : shiftToTargetExponent .binary64 m e a = (em, t)) (ht : -1074 ≤ t)
    (hrounded : em.roundedMantissa = 2 ^ 53) :
    roundWithAccuracy .binary64 sign m e a = .finite sign (2 ^ 52) (t + 1) (by decide) := by
  simp only [roundWithAccuracy, hshift, hrounded, shiftToTargetExponent_carry ht]
  rfl

/-- An integer power put together from the powers that its sign allows. -/
theorem pow_toNat {b : ℚ} (hb : b ≠ 0) (k : Int) : b ^ k.toNat = b ^ k * b ^ (-k).toNat := by
  rw [← zpow_natCast, ← zpow_natCast, ← zpow_add₀ hb]
  congr 1
  omega

theorem zpow_lt_zpow_two {a b : Int} (h : (2 : ℚ) ^ a < 2 ^ b) : a < b :=
  (zpow_lt_zpow_iff_right₀ (by norm_num)).mp h

/-- A number is cut at no higher exponent than that of the double that covers it. -/
theorem Covers.cut_le_exponent {x : Binary64} {v : ℚ} (hv : x.Covers v) (hx : x.Canonical)
    {t : Int} (hlow : t = -1074 ∨ (2 : ℚ) ^ (t + 52) ≤ v) : t ≤ x.exponent := by
  by_contra hlt
  have hleast := hx.le_exponent
  have hunit : (0 : ℚ) < 2 ^ x.exponent := by positivity
  have hle : (x.significand : ℚ) + 1 ≤ 2 ^ 53 := by exact_mod_cast hx.significand_lt
  have hbound : (2 : ℚ) ^ (t + 52) < 2 ^ (x.exponent + 53) := by
    calc (2 : ℚ) ^ (t + 52) ≤ v := hlow.resolve_left (by omega)
      _ ≤ (x.significand + 1 / 2) * 2 ^ x.exponent := hv.high
      _ < 2 ^ 53 * 2 ^ x.exponent := by
        apply mul_lt_mul_of_pos_right _ hunit
        linarith
      _ = 2 ^ (x.exponent + 53) := by rw [zpow_add₀ (by norm_num), mul_comm]; norm_num
  have := zpow_lt_zpow_two hbound
  omega

/-- A number that is cut at a lower exponent lies right below a power of two, and is covered by
it. -/
theorem Covers.eq_of_cut_lt_exponent {x : Binary64} {v : ℚ} (hv : x.Covers v) (hx : x.Canonical)
    {t : Int} (hleast : -1074 ≤ t) (hhigh : v < (2 : ℚ) ^ (t + 53)) (hlt : t < x.exponent) :
    x.significand = 2 ^ 52 ∧ x.exponent = t + 1 := by
  obtain ⟨negative, n, k⟩ := x
  obtain ⟨hvlow, -, -⟩ := hv
  obtain ⟨-, -, hnormal⟩ := hx
  simp only at hvlow hlt hnormal
  have hunit : (0 : ℚ) < 2 ^ k := by positivity
  have hbelow := below_le ⟨negative, n, k⟩
  have hlarge : 2 ^ 52 ≤ n := hnormal.resolve_right (by omega)
  have hn : n = 2 ^ 52 := by
    have hbinade : v < 2 ^ 52 * 2 ^ k := by
      calc v < 2 ^ (t + 53) := hhigh
        _ ≤ 2 ^ (52 + k) := zpow_le_zpow_right₀ (by norm_num) (by omega)
        _ = 2 ^ 52 * 2 ^ k := by rw [zpow_add₀ (by norm_num)]; norm_num
    have hcut : ((n : ℚ) - below ⟨negative, n, k⟩) < 2 ^ 52 := by
      apply lt_of_mul_lt_mul_right _ hunit.le
      exact lt_of_le_of_lt hvlow hbinade
    have hcast : (n : ℚ) < 2 ^ 52 + 1 := by linarith
    have : n < 2 ^ 52 + 1 := by exact_mod_cast hcast
    omega
  subst hn
  have hbound : (2 : ℚ) ^ (k + 51) < 2 ^ (t + 53) := by
    calc (2 : ℚ) ^ (k + 51) = 2 ^ 51 * 2 ^ k := by
          rw [zpow_add₀ (by norm_num), mul_comm]; norm_num
      _ ≤ (((2 ^ 52 : Nat) : ℚ) - below ⟨negative, 2 ^ 52, k⟩) * 2 ^ k := by
        apply mul_le_mul_of_nonneg_right _ hunit.le
        push_cast
        linarith
      _ ≤ v := hvlow
      _ < 2 ^ (t + 53) := hhigh
  have := zpow_lt_zpow_two hbound
  exact ⟨rfl, by simp only; omega⟩

/-- A number that a double covers is rounded to it, when it has been cut at the exponent that its
size calls for. -/
theorem roundWithAccuracy_of_covers {x : Binary64} (hx : x.Canonical) (hpos : 0 < x.significand)
    {v : ℚ} (hv : x.Covers v) {sign : Float.Model.UnpackedFloat.Sign} {m : Nat} {e t : Int}
    {a : Accuracy}
    (hm : Describes (ExtendedMantissa.ofMantissaAndAccuracy m a) (v / 2 ^ e))
    (ht : Format.binary64.targetExponent (totalExponent m e) = t) (he : e ≤ t)
    (hlow : t = -1074 ∨ (2 : ℚ) ^ (t + 52) ≤ v) (hhigh : v < (2 : ℚ) ^ (t + 53)) :
    roundWithAccuracy .binary64 sign m e a = .finite sign x.significand x.exponent hpos := by
  have hleast : -1074 ≤ t := by
    rw [← ht, targetExponent_eq]
    omega
  have hshift := shiftToTargetExponent_of_le (a := a) ht he
  have hdescribes := hm.shiftRight (t - e).toNat
  have hunits : v / 2 ^ e / 2 ^ (t - e).toNat = v / 2 ^ t := by
    rw [div_div, ← zpow_natCast, ← zpow_add₀ (by norm_num), Int.toNat_of_nonneg (by omega)]
    congr 2
    omega
  rw [hunits] at hdescribes
  have hle := hv.cut_le_exponent hx hlow
  have hcarry := hv.eq_of_cut_lt_exponent hx hleast hhigh
  have hbelow := below_le x
  obtain ⟨negative, n, k⟩ := x
  obtain ⟨hvlow, hvhigh, htie⟩ := hv
  have hunit : (0 : ℚ) < 2 ^ t := by positivity
  rcases hle.eq_or_lt with heq | hlt
  · simp only at heq hvlow hvhigh htie
    subst heq
    refine roundWithAccuracy_of_rounded hshift hleast ?_ hpos hx.significand_lt
    have hle : ((n : ℚ) - below ⟨negative, n, t⟩) ≤ v / 2 ^ t := (le_div_iff₀ hunit).mpr hvlow
    refine hdescribes.roundedMantissa (by linarith) ((div_le_iff₀ hunit).mpr hvhigh) fun hodd => ?_
    obtain ⟨htlow, hthigh⟩ := htie hodd
    have hlt : ((n : ℚ) - below ⟨negative, n, t⟩) < v / 2 ^ t := (lt_div_iff₀ hunit).mpr htlow
    exact ⟨by linarith, (div_lt_iff₀ hunit).mpr hthigh⟩
  · -- below a power of two the cut is one exponent lower, and rounding carries
    obtain ⟨hn, hk⟩ := hcarry hlt
    simp only at hn hk hvlow
    subst hn hk
    have hquarter : below ⟨negative, 2 ^ 52, t + 1⟩ = 1 / 4 := if_pos ⟨rfl, by simp only; omega⟩
    rw [hquarter, zpow_add_one₀ (by norm_num)] at hvlow
    rw [show t + 53 = t + (53 : Nat) from rfl, zpow_add₀ (by norm_num), zpow_natCast] at hhigh
    refine roundWithAccuracy_of_carry hshift hleast ?_
    have hlow' : ((2 ^ 53 : Nat) : ℚ) - 1 / 2 ≤ v / 2 ^ t := by
      rw [le_div_iff₀ hunit]
      push_cast at hvlow ⊢
      linarith
    have hhigh' : v / 2 ^ t ≤ ((2 ^ 53 : Nat) : ℚ) + 1 / 2 := by
      rw [div_le_iff₀ hunit]
      push_cast
      linarith
    exact hdescribes.roundedMantissa hlow' hhigh' fun hodd => absurd hodd (by decide)

theorem Describes.mantissa_le {em : ExtendedMantissa} {v : ℚ} (h : Describes em v) :
    (em.mantissa : ℚ) ≤ v := by
  have hle := h.le
  unfold known at hle
  split at hle <;> linarith

theorem Describes.lt_mantissa {em : ExtendedMantissa} {v : ℚ} (h : Describes em v) :
    v < em.mantissa + 1 := by
  have hlt := h.lt
  unfold known at hlt
  split at hlt <;> linarith

theorem mantissa_ofMantissaAndAccuracy (m : Nat) (a : Accuracy) :
    (ExtendedMantissa.ofMantissaAndAccuracy m a).mantissa = m := by
  cases a with
  | exact => rfl
  | inexact o => cases o <;> rfl

theorem two_pow_log2_le {m : Nat} (hm : 0 < m) : (2 : ℚ) ^ (m.log2 : Int) ≤ m := by
  rw [zpow_natCast]
  exact_mod_cast Nat.log2_self_le (Nat.ne_of_gt hm)

theorem lt_two_pow_log2 (m : Nat) : (m : ℚ) < 2 ^ (m.log2 + 1 : Int) := by
  have hlt := Nat.lt_log2_self (n := m)
  have : (m : ℚ) < 2 ^ (m.log2 + 1) := by exact_mod_cast hlt
  exact_mod_cast this

theorem Describes.lt_zpow {m : Nat} {a : Accuracy} {e : Int} {v : ℚ}
    (h : Describes (ExtendedMantissa.ofMantissaAndAccuracy m a) (v / 2 ^ e)) :
    v < 2 ^ (m.log2 + 1 + e) := by
  have hunit : (0 : ℚ) < 2 ^ e := by positivity
  have hlt := h.lt_mantissa
  rw [mantissa_ofMantissaAndAccuracy, div_lt_iff₀ hunit] at hlt
  have hm : (m : ℚ) + 1 ≤ 2 ^ (m.log2 + 1 : Int) := by
    have hlt := Nat.lt_log2_self (n := m)
    have : ((m + 1 : Nat) : ℚ) ≤ 2 ^ (m.log2 + 1) := by exact_mod_cast hlt
    exact_mod_cast this
  calc v < (m + 1) * 2 ^ e := hlt
    _ ≤ 2 ^ (m.log2 + 1 : Int) * 2 ^ e := mul_le_mul_of_nonneg_right hm hunit.le
    _ = 2 ^ (m.log2 + 1 + e) := (zpow_add₀ (by norm_num) _ _).symm

theorem Describes.zpow_le {m : Nat} {a : Accuracy} {e : Int} {v : ℚ} (hm : 0 < m)
    (h : Describes (ExtendedMantissa.ofMantissaAndAccuracy m a) (v / 2 ^ e)) :
    (2 : ℚ) ^ (m.log2 + e) ≤ v := by
  have hunit : (0 : ℚ) < 2 ^ e := by positivity
  have hle := h.mantissa_le
  rw [mantissa_ofMantissaAndAccuracy, le_div_iff₀ hunit] at hle
  calc (2 : ℚ) ^ (m.log2 + e) = 2 ^ (m.log2 : Int) * 2 ^ e := zpow_add₀ (by norm_num) _ _
    _ ≤ m * 2 ^ e := mul_le_mul_of_nonneg_right (two_pow_log2_le hm) hunit.le
    _ ≤ v := hle

/-! ### Products and quotients -/

section

variable {x : Binary64} (hx : x.Canonical) (hpos : 0 < x.significand)
include hx

/-- A mantissa and its accuracy are rounded to the double that covers what they describe. -/
theorem roundWithAccuracy_of_describes {v : ℚ} (hv : x.Covers v)
    {sign : Float.Model.UnpackedFloat.Sign} {m : Nat} {e : Int} {a : Accuracy}
    (hm : Describes (ExtendedMantissa.ofMantissaAndAccuracy m a) (v / 2 ^ e))
    (he : e ≤ max (m.log2 + e - 52) (-1074)) (hzero : m = 0 → e ≤ -1074) :
    roundWithAccuracy .binary64 sign m e a = .finite sign x.significand x.exponent hpos := by
  refine roundWithAccuracy_of_covers hx hpos hv hm (targetExponent_eq m e) he ?_ ?_
  · by_cases hleast : max (m.log2 + e - 52) (-1074) = -1074
    · exact .inl hleast
    · right
      have hpos : 0 < m := by
        by_contra hm
        have hm : m = 0 := by omega
        subst hm
        have := hzero rfl
        have hlog : Nat.log2 0 = 0 := by decide
        rw [hlog] at hleast
        omega
      have htop : max (m.log2 + e - 52) (-1074) + 52 = m.log2 + e := by omega
      rw [htop]
      exact hm.zpow_le hpos
  · calc v < 2 ^ (m.log2 + 1 + e) := hm.lt_zpow
      _ ≤ 2 ^ (max (m.log2 + e - 52) (-1074) + 53) :=
        zpow_le_zpow_right₀ (by norm_num) (by omega)

theorem mul_of_covers {m₁ m₂ : Nat} {e₁ e₂ : Int} (h₁ : 0 < m₁) (h₂ : 0 < m₂)
    (hlarge : 2 ^ 52 ≤ m₁ * m₂) (hv : x.Covers (m₁ * 2 ^ e₁ * (m₂ * 2 ^ e₂))) :
    mul .binary64 (.finite .positive m₁ e₁ h₁) (.finite .positive m₂ e₂ h₂) =
      .finite .positive x.significand x.exponent hpos := by
  have hlog : 52 ≤ (m₁ * m₂).log2 :=
    (Nat.le_log2 (Nat.mul_ne_zero (by omega) (by omega))).mpr hlarge
  have hvalue : (m₁ * 2 ^ e₁ * (m₂ * 2 ^ e₂) : ℚ) / 2 ^ (e₁ + e₂) = (m₁ * m₂ : Nat) := by
    rw [zpow_add₀ (by norm_num)]
    push_cast
    field_simp
  refine roundWithAccuracy_of_describes hx hpos hv ?_ (by omega) fun h => ?_
  · rw [hvalue]
    exact describes_exact _
  · rw [h] at hlarge
    exact absurd hlarge (by decide)

theorem div_of_covers {m₁ m₂ : Nat} {e₁ e₂ : Int} (h₁ : 0 < m₁) (h₂ : 0 < m₂)
    (hv : x.Covers (m₁ * 2 ^ e₁ / (m₂ * 2 ^ e₂))) :
    div .binary64 (.finite .positive m₁ e₁ h₁) (.finite .positive m₂ e₂ h₂) =
      .finite .positive x.significand x.exponent hpos := by
  simp only [div, divCore]
  have htarget : Format.binary64.targetExponent (totalExponent m₁ e₁ - totalExponent m₂ e₂) =
      max ((m₁.log2 + e₁) - (m₂.log2 + e₂) - 53) (-1074) := by
    simp only [Format.targetExponent, totalExponent, Format.mantissaBits, Format.minExponent]
    omega
  rw [htarget]
  generalize he : min (e₁ - e₂) (max ((m₁.log2 + e₁) - (m₂.log2 + e₂) - 53) (-1074)) = e
  have hvalue : (m₁ * 2 ^ e₁ / (m₂ * 2 ^ e₂) : ℚ) / 2 ^ e =
      (m₁ <<< (e₁ - e₂ - e).toNat : Nat) / m₂ := by
    have hpow : (2 : ℚ) ^ e₁ = 2 ^ (e₁ - e₂ - e).toNat * 2 ^ e₂ * 2 ^ e := by
      rw [← zpow_natCast, ← zpow_add₀ (by norm_num), ← zpow_add₀ (by norm_num),
        Int.toNat_of_nonneg (by omega)]
      congr 1
      omega
    have hm₂ : (m₂ : ℚ) ≠ 0 := by exact_mod_cast h₂.ne'
    rw [Nat.shiftLeft_eq, hpow]
    push_cast
    field_simp
  have hdescribes := describes_fraction (m₁ <<< (e₁ - e₂ - e).toNat) h₂
  rw [← hvalue] at hdescribes
  have hsize : (2 : ℚ) ^ ((m₁.log2 + e₁) - (m₂.log2 + 1 + e₂)) ≤
      m₁ * 2 ^ e₁ / (m₂ * 2 ^ e₂) := by
    have hm₂ : (0 : ℚ) < m₂ := by exact_mod_cast h₂
    rw [le_div_iff₀ (by positivity)]
    calc (2 : ℚ) ^ ((m₁.log2 + e₁) - (m₂.log2 + 1 + e₂)) * (m₂ * 2 ^ e₂)
      _ ≤ 2 ^ ((m₁.log2 + e₁) - (m₂.log2 + 1 + e₂)) * (2 ^ (m₂.log2 + 1 : Int) * 2 ^ e₂) := by
        gcongr
        exact (lt_two_pow_log2 m₂).le
      _ = 2 ^ (m₁.log2 : Int) * 2 ^ e₁ := by
        rw [← zpow_add₀ (by norm_num), ← zpow_add₀ (by norm_num), ← zpow_add₀ (by norm_num)]
        congr 1
        omega
      _ ≤ m₁ * 2 ^ e₁ := by
        gcongr
        exact two_pow_log2_le h₁
  have hlt := zpow_lt_zpow_two (lt_of_le_of_lt hsize hdescribes.lt_zpow)
  refine roundWithAccuracy_of_describes hx hpos hv hdescribes ?_ fun hzero => ?_
  · by_cases hzero : m₁ <<< (e₁ - e₂ - e).toNat / m₂ = 0
    · rw [hzero] at hlt ⊢
      have hlog : Nat.log2 0 = 0 := by decide
      rw [hlog] at hlt ⊢
      omega
    · omega
  · rw [hzero] at hlt
    have hlog : Nat.log2 0 = 0 := by decide
    rw [hlog] at hlt
    omega

end

end Binary64
end PathQuery
