import PathQuery.Proofs.Number.Nearest
import PathQuery.Number.Shortest

/-!
# The shortest decimal is covered

The search for the shortest decimal keeps to the interval of its double, and the last grid that it
tries is so fine that it must have a point there. So the decimal that is found reads back as the
double.
-/

namespace PathQuery
namespace Binary64

/-! ### The interval -/

section

variable {x : Binary64}

theorem interval_den_pos : 0 < x.interval.den := Nat.pow_pos (by decide)

theorem two_zpow_interval : (2 : ℚ) ^ (x.exponent - 2).toNat =
    2 ^ x.exponent / 4 * 2 ^ (2 - x.exponent).toNat := by
  have hfour : (2 : ℚ) ^ x.exponent / 4 = 2 ^ (x.exponent - 2) := by
    rw [zpow_sub₀ (by norm_num)]
    norm_num
  rw [hfour, pow_toNat (by norm_num), Int.neg_sub]

theorem interval_value : (x.interval.value : ℚ) =
    x.significand * 2 ^ x.exponent * x.interval.den := by
  simp only [interval, Nat.pow_eq]
  push_cast
  rw [two_zpow_interval]
  ring

theorem interval_high : (x.interval.high : ℚ) =
    (x.significand + 1 / 2) * 2 ^ x.exponent * x.interval.den := by
  simp only [interval, Nat.pow_eq]
  push_cast
  rw [two_zpow_interval]
  ring

theorem interval_low (hpos : 0 < x.significand) : (x.interval.low : ℚ) =
    (x.significand - x.below) * 2 ^ x.exponent * x.interval.den := by
  have hbelow : x.below =
      ((if x.significand = leastNormal ∧ -1074 < x.exponent then 1 else 2 : Nat) : ℚ) / 4 := by
    unfold below
    rw [leastNormal_eq]
    split <;> norm_num
  have hle : (if x.significand = leastNormal ∧ -1074 < x.exponent then 1 else 2) ≤
      4 * x.significand := by
    split <;> omega
  rw [hbelow]
  simp only [interval, Nat.pow_eq]
  rw [Nat.cast_mul, Nat.cast_sub hle]
  push_cast
  rw [two_zpow_interval]
  ring

theorem bound_le_iff {bound den : Nat} (num : Nat) {q : ℚ} (hden : 0 < den)
    (hbound : (bound : ℚ) = q * x.interval.den) :
    (bound * den ≤ num * x.interval.den ↔ q ≤ num / den) ∧
      (num * x.interval.den ≤ bound * den ↔ (num : ℚ) / den ≤ q) := by
  have hdenq : (0 : ℚ) < den := by exact_mod_cast hden
  have hunit : (0 : ℚ) < x.interval.den := by exact_mod_cast interval_den_pos
  have hleft : ((bound * den : Nat) : ℚ) = q * den * x.interval.den := by
    push_cast
    rw [hbound]
    ring
  have hright : ((num * x.interval.den : Nat) : ℚ) = num * x.interval.den := by push_cast; rfl
  constructor
  · rw [le_div_iff₀ hdenq, ← mul_le_mul_iff_left₀ hunit, ← hleft, ← hright, Nat.cast_le]
  · rw [div_le_iff₀ hdenq, ← mul_le_mul_iff_left₀ hunit, ← hleft, ← hright, Nat.cast_le]

theorem contains_iff (hpos : 0 < x.significand) {num den : Nat} (hden : 0 < den) :
    x.interval.contains num den = true ↔ x.Covers (num / den) := by
  obtain ⟨hlow, hlow'⟩ := bound_le_iff num hden (interval_low hpos)
  obtain ⟨hhigh', hhigh⟩ := bound_le_iff num hden (interval_high (x := x))
  have hclosed : x.interval.closed = (x.significand % 2 == 0) := rfl
  unfold Interval.contains
  rw [hclosed]
  rcases Nat.mod_two_eq_zero_or_one x.significand with hparity | hparity
  · simp only [hparity, beq_self_eq_true, if_true, Bool.and_eq_true, decide_eq_true_eq, hlow, hhigh]
    constructor
    · rintro ⟨h₁, h₂⟩
      exact ⟨h₁, h₂, fun hodd => by omega⟩
    · intro h
      exact ⟨h.low, h.high⟩
  · have hodd : ((1 : Nat) == 0) = false := rfl
    simp only [hparity, hodd, Bool.false_eq_true, if_false, Bool.and_eq_true, decide_eq_true_eq,
      ← Nat.not_le, hlow', hhigh', not_le]
    constructor
    · rintro ⟨h₁, h₂⟩
      exact ⟨h₁.le, h₂.le, fun _ => ⟨h₁, h₂⟩⟩
    · intro h
      exact h.tie hparity

end

/-! ### The grids -/

section

variable {x : Binary64} (hpos : 0 < x.significand) {tie : Tie} {step : Int}

theorem ten_pow_pos (n : Nat) : 0 < Nat.pow 10 n := Nat.pow_pos (by decide)

theorem grid_value (n : Nat) (step : Int) :
    ((n * Nat.pow 10 step.toNat : Nat) : ℚ) / (Nat.pow 10 (-step).toNat : Nat) = n * 10 ^ step := by
  simp only [Nat.pow_eq]
  push_cast
  rw [pow_toNat (by norm_num)]
  field_simp

include hpos in
theorem gridPoint?_covers {n : Nat} (h : gridPoint? x.interval tie step = some n) :
    x.Covers ((⟨n, step⟩ : Decimal).value) := by
  have hcovers : ∀ m, x.interval.contains (m * Nat.pow 10 step.toNat) (Nat.pow 10 (-step).toNat) =
      true → x.Covers ((⟨m, step⟩ : Decimal).value) := by
    intro m hm
    rw [contains_iff hpos (ten_pow_pos _), grid_value] at hm
    exact hm
  have hboth : ∀ {a b : Nat} (upper : Bool), x.Covers ((⟨a, step⟩ : Decimal).value) →
      x.Covers ((⟨b, step⟩ : Decimal).value) →
      x.Covers ((⟨if upper then a else b, step⟩ : Decimal).value) := by
    intro a b upper ha hb
    cases upper
    · exact hb
    · exact ha
  unfold gridPoint? at h
  simp only at h
  split at h
  · next hbelow habove =>
    cases h
    exact hboth _ (hcovers _ habove) (hcovers _ hbelow)
  · next hbelow _ =>
    cases h
    exact hcovers _ hbelow
  · next _ habove =>
    cases h
    exact hcovers _ habove
  · cases h

include hpos in
/-- A grid whose points are nearer to each other than half a unit has a point in the interval. -/
theorem gridPoint?_ne_none (hstep : (10 : ℚ) ^ step < 1 / 2 * 2 ^ x.exponent) :
    gridPoint? x.interval tie step ≠ none := by
  have hunit : (0 : ℚ) < 2 ^ x.exponent := by positivity
  have hbelow := below_pos x
  have hgrid : (0 : ℚ) < 10 ^ step := by positivity
  let num := x.interval.value * Nat.pow 10 (-step).toNat
  let den := x.interval.den * Nat.pow 10 step.toNat
  have hden : 0 < den := Nat.mul_pos interval_den_pos (Nat.pow_pos (by decide))
  have hvalue : (num : ℚ) / den = x.significand * 2 ^ x.exponent / 10 ^ step := by
    have hinterval : (0 : ℚ) < x.interval.den := by exact_mod_cast interval_den_pos
    simp only [num, den, Nat.pow_eq]
    push_cast
    rw [interval_value, pow_toNat (by norm_num) step]
    field_simp
  have hfloor := (describes_fraction num hden).mantissa_le
  have hceiling := (describes_fraction num hden).lt_mantissa
  rw [mantissa_ofMantissaAndAccuracy, hvalue, le_div_iff₀ hgrid] at hfloor
  rw [mantissa_ofMantissaAndAccuracy, hvalue, div_lt_iff₀ hgrid] at hceiling
  -- the point above the value is at most one step away from it
  have hcovers : x.Covers ((num / den + 1 : Nat) * 10 ^ step) := by
    have hlow : ((x.significand : ℚ) - x.below) * 2 ^ x.exponent <
        (num / den + 1 : Nat) * 10 ^ step := by
      push_cast
      nlinarith
    have hhigh : ((num / den + 1 : Nat) : ℚ) * 10 ^ step <
        (x.significand + 1 / 2) * 2 ^ x.exponent := by
      push_cast
      linarith
    exact ⟨hlow.le, hhigh.le, fun _ => ⟨hlow, hhigh⟩⟩
  have hcontains : x.interval.contains ((num / den + 1) * Nat.pow 10 step.toNat)
      (Nat.pow 10 (-step).toNat) = true := by
    rw [contains_iff hpos (ten_pow_pos _), grid_value]
    exact hcovers
  unfold gridPoint?
  simp only
  split
  · exact Option.some_ne_none _
  · exact Option.some_ne_none _
  · exact Option.some_ne_none _
  · next _ habove =>
    change x.interval.contains ((num / den + 1) * Nat.pow 10 step.toNat) _ = false at habove
    rw [hcontains] at habove
    cases habove

theorem stripZeros_value (fuel : Nat) (d : Decimal) : (stripZeros fuel d).value = d.value := by
  induction fuel generalizing d with
  | zero => rfl
  | succ fuel ih =>
    rw [stripZeros]
    split
    · next h =>
      rw [ih]
      have hdigits : (d.digits : ℚ) = (d.digits / 10 : Nat) * 10 := by
        have : d.digits = d.digits / 10 * 10 := by omega
        exact_mod_cast this
      simp only [Decimal.value]
      rw [zpow_add_one₀ (by norm_num), hdigits]
      ring
    · rfl

include hpos in
/-- The search ends with a covered decimal if the last grid that it may try is fine enough. -/
theorem shortestFrom_covers {top : Int} {tries count : Nat}
    (hlast : (10 : ℚ) ^ (top + 1 - (count + tries : Nat)) < 1 / 2 * 2 ^ x.exponent) :
    x.Covers (shortestFrom x.interval tie top count (tries + 1)).value := by
  induction tries generalizing count with
  | zero =>
    cases hgrid : gridPoint? x.interval tie (top + 1 - count) with
    | some n =>
      simp only [shortestFrom, hgrid, stripZeros_value]
      exact gridPoint?_covers hpos hgrid
    | none => exact absurd hgrid (gridPoint?_ne_none hpos hlast)
  | succ tries ih =>
    rw [shortestFrom]
    cases hgrid : gridPoint? x.interval tie (top + 1 - count) with
    | some n =>
      simp only [stripZeros_value]
      exact gridPoint?_covers hpos hgrid
    | none =>
      apply ih
      rw [show count + 1 + tries = count + (tries + 1) by omega]
      exact hlast

end

/-! ### The first digit -/

/-- The first guess for the decimal exponent is never more than two too high. -/
theorem ten_zpow_le_two_zpow_log {l : Int} (hlow : -1100 ≤ l) (hhigh : l ≤ 1100) :
    (10 : ℚ) ^ (l * 30103 / 100000 - 2) ≤ 2 ^ (l - 1) := by
  generalize hm : l * 30103 / 100000 - 2 = m
  by_cases hnonneg : 0 ≤ m
  · -- a thousand is less than two to the power of ten
    have hcube : ((10 : ℚ) ^ m) ^ 3 ≤ (2 ^ (l - 1)) ^ 3 := by
      calc ((10 : ℚ) ^ m) ^ 3 = (10 ^ 3) ^ m := by
            rw [← zpow_natCast, ← zpow_natCast, ← zpow_mul, ← zpow_mul, mul_comm]
        _ ≤ (2 ^ (10 : Int)) ^ m := zpow_le_zpow_left₀ hnonneg (by norm_num) (by norm_num)
        _ = 2 ^ (10 * m) := (zpow_mul _ _ _).symm
        _ ≤ 2 ^ ((l - 1) * 3) := zpow_le_zpow_right₀ (by norm_num) (by omega)
        _ = (2 ^ (l - 1)) ^ 3 := by rw [zpow_mul]; rfl
    exact le_of_pow_le_pow_left₀ (by decide) (by positivity) hcube
  · -- ten to the power of twenty-eight is more than two to the power of ninety-three
    have hpower : ((10 : ℚ) ^ m) ^ 28 ≤ (2 ^ (l - 1)) ^ 28 := by
      have hneg : (10 ^ 28 : ℚ) ^ m ≤ (2 ^ (93 : Int)) ^ m := by
        have hle := zpow_le_zpow_left₀ (n := -m) (a := (2 : ℚ) ^ (93 : Int)) (b := 10 ^ 28)
          (by omega) (by norm_num) (by norm_num)
        rw [zpow_neg, zpow_neg] at hle
        exact (inv_le_inv₀ (by positivity) (by positivity)).mp hle
      calc ((10 : ℚ) ^ m) ^ 28 = (10 ^ 28) ^ m := by
            rw [← zpow_natCast, ← zpow_natCast, ← zpow_mul, ← zpow_mul, mul_comm]
        _ ≤ (2 ^ (93 : Int)) ^ m := hneg
        _ = 2 ^ (93 * m) := (zpow_mul _ _ _).symm
        _ ≤ 2 ^ ((l - 1) * 28) := zpow_le_zpow_right₀ (by norm_num) (by omega)
        _ = (2 ^ (l - 1)) ^ 28 := by rw [zpow_mul]; rfl
    exact le_of_pow_le_pow_left₀ (by decide) (by positivity) hpower

theorem ten_zpow_le_of_mul_le {num den : Nat} (hden : 0 < den) {k : Int}
    (h : den * Nat.pow 10 k.toNat ≤ num * Nat.pow 10 (-k).toNat) : (10 : ℚ) ^ k ≤ num / den := by
  have hdenq : (0 : ℚ) < den := by exact_mod_cast hden
  have hunit : (0 : ℚ) < 10 ^ (-k).toNat := by positivity
  have hcast : (den : ℚ) * 10 ^ k.toNat ≤ num * 10 ^ (-k).toNat := by exact_mod_cast h
  rw [pow_toNat (by norm_num)] at hcast
  rw [le_div_iff₀ hdenq]
  apply le_of_mul_le_mul_right _ hunit
  linarith

theorem ten_zpow_guess_le {num den : Nat} (hnum : 0 < num) (hden : 0 < den)
    (hnumlog : num.log2 ≤ 1100) (hdenlog : den.log2 ≤ 1100) :
    (10 : ℚ) ^ (((num.log2 : Int) - den.log2) * 30103 / 100000 - 2) ≤ num / den := by
  have hdenq : (0 : ℚ) < den := by exact_mod_cast hden
  calc (10 : ℚ) ^ (((num.log2 : Int) - den.log2) * 30103 / 100000 - 2)
    _ ≤ 2 ^ ((num.log2 : Int) - den.log2 - 1) :=
      ten_zpow_le_two_zpow_log (by omega) (by omega)
    _ ≤ num / den := by
      rw [le_div_iff₀ hdenq]
      calc (2 : ℚ) ^ ((num.log2 : Int) - den.log2 - 1) * den
        _ ≤ 2 ^ ((num.log2 : Int) - den.log2 - 1) * 2 ^ (den.log2 + 1 : Int) := by
          gcongr
          exact (lt_two_pow_log2 den).le
        _ = 2 ^ (num.log2 : Int) := by
          rw [← zpow_add₀ (by norm_num)]
          congr 1
          omega
        _ ≤ num := two_pow_log2_le hnum

theorem decimalExponent_le {num den : Nat} (hnum : 0 < num) (hden : 0 < den)
    (hnumlog : num.log2 ≤ 1100) (hdenlog : den.log2 ≤ 1100) :
    (10 : ℚ) ^ decimalExponent num den ≤ num / den := by
  have hguess := ten_zpow_guess_le hnum hden hnumlog hdenlog
  unfold decimalExponent
  simp only [decide_eq_true_eq]
  split
  · next h => exact ten_zpow_le_of_mul_le hden h
  split
  · next h => exact ten_zpow_le_of_mul_le hden h
  split
  · next h => exact ten_zpow_le_of_mul_le hden h
  · rw [show ((num.log2 : Int) - den.log2) * 30103 / 100000 - 1 - 1 =
      ((num.log2 : Int) - den.log2) * 30103 / 100000 - 2 by omega]
    exact hguess

/-- The shortest decimal of a positive double is one of those that round to it. -/
theorem shortest_covers {x : Binary64} (hx : x.Canonical) (hfinite : x.exponent ≤ 971)
    (hpos : 0 < x.significand) (tie : Tie) : x.Covers (x.shortest tie).value := by
  have hlt := hx.significand_lt
  have hle := hx.le_exponent
  have hdenlog : x.interval.den.log2 ≤ 1100 := by
    have hden : x.interval.den = 2 ^ (2 - x.exponent).toNat := rfl
    rw [hden, Nat.log2_two_pow]
    omega
  have hvaluepos : 0 < x.interval.value :=
    Nat.mul_pos (by omega) (Nat.pow_pos (by decide))
  have hvaluelog : x.interval.value.log2 ≤ 1100 := by
    have hbound : x.interval.value < 2 ^ (55 + (x.exponent - 2).toNat) := by
      calc x.interval.value = 4 * x.significand * 2 ^ (x.exponent - 2).toNat := rfl
        _ < 2 ^ 55 * 2 ^ (x.exponent - 2).toNat := by
          apply Nat.mul_lt_mul_of_pos_right _ (Nat.pow_pos (by decide))
          omega
        _ = 2 ^ (55 + (x.exponent - 2).toNat) := (Nat.pow_add _ _ _).symm
    have hlog := (Nat.log2_lt hvaluepos.ne').mpr hbound
    omega
  have htop := decimalExponent_le hvaluepos interval_den_pos hvaluelog hdenlog
  have hinterval : (0 : ℚ) < x.interval.den := by exact_mod_cast interval_den_pos
  rw [interval_value, mul_div_cancel_right₀ _ hinterval.ne'] at htop
  unfold shortest
  rw [if_neg hpos.ne']
  simp only
  generalize decimalExponent x.interval.value x.interval.den = top at htop ⊢
  refine shortestFrom_covers hpos ?_
  have hunit : (0 : ℚ) < 2 ^ x.exponent := by positivity
  have hsmall : (x.significand : ℚ) < 2 ^ 53 := by exact_mod_cast hlt
  rw [show top + 1 - ((1 + 17 : Nat) : Int) = top + (-17) by omega, zpow_add₀ (by norm_num)]
  calc (10 : ℚ) ^ top * 10 ^ (-17 : Int)
    _ ≤ x.significand * 2 ^ x.exponent * 10 ^ (-17 : Int) := by gcongr
    _ ≤ 2 ^ 53 * 2 ^ x.exponent * 10 ^ (-17 : Int) := by gcongr
    _ < 1 / 2 * 2 ^ x.exponent := by
      norm_num
      linarith

end Binary64
end PathQuery
