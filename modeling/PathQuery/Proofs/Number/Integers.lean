import PathQuery.Number.Integer
import PathQuery.Proofs.Number.Nearest
import PathQuery.Proofs.Number.Order

/-!
# Integers as doubles

The order of finite doubles is the order of the numbers that they are. An integer becomes the double
that covers it, so a greater integer never becomes a less double, and different integers become the
same double only where 53 bits do not hold them.
-/

namespace PathQuery
namespace Binary64

open Float.Model (UnpackedFloat)
open Float.Model.UnpackedFloat

/-! ### The order of the exact numbers -/

def magnitude (x : Binary64) : ℚ := x.significand * 2 ^ x.exponent

def value (x : Binary64) : ℚ := if x.negative then -x.magnitude else x.magnitude

section

variable {x y : Binary64}

theorem magnitude_nonneg (x : Binary64) : 0 ≤ x.magnitude := by
  unfold magnitude
  positivity

theorem magnitude_pos (hpos : 0 < x.significand) : 0 < x.magnitude := by
  have hcast : (0 : ℚ) < x.significand := by exact_mod_cast hpos
  unfold magnitude
  positivity

theorem magnitude_eq_zero (hzero : x.significand = 0) : x.magnitude = 0 := by
  rw [magnitude, hzero, Nat.cast_zero, zero_mul]

theorem two_zpow_add_one (e : Int) : (2 : ℚ) ^ (e + 1) = 2 * 2 ^ e := by
  rw [zpow_add_one₀ (by norm_num), mul_comm]

theorem two_mul_unit_le {d e : Int} (h : d < e) : 2 * (2 : ℚ) ^ d ≤ 2 ^ e := by
  rw [← two_zpow_add_one]
  exact zpow_le_zpow_right₀ (by norm_num) (by omega)

theorem Canonical.normal (hy : y.Canonical) (h : -1074 < y.exponent) :
    (2 : ℚ) ^ 52 ≤ y.significand := by
  have hnormal : 2 ^ 52 ≤ y.significand := hy.normal_or_least.resolve_right (by omega)
  exact_mod_cast hnormal

theorem Canonical.significand_add_one_le (hx : x.Canonical) : (x.significand : ℚ) + 1 ≤ 2 ^ 53 := by
  exact_mod_cast hx.significand_lt

theorem magnitude_lt_of_exponent_lt (hx : x.Canonical) (hy : y.Canonical)
    (h : x.exponent < y.exponent) : x.magnitude < y.magnitude := by
  have hunit : (0 : ℚ) < 2 ^ x.exponent := by positivity
  have hnormal := hy.normal (hx.le_exponent.trans_lt h)
  have hlt : (x.significand : ℚ) < 2 ^ 53 := by linarith [hx.significand_add_one_le]
  calc x.magnitude < 2 ^ 53 * 2 ^ x.exponent := mul_lt_mul_of_pos_right hlt hunit
    _ = 2 ^ 52 * (2 * 2 ^ x.exponent) := by ring
    _ ≤ y.significand * 2 ^ y.exponent :=
      mul_le_mul hnormal (two_mul_unit_le h) (by positivity) (by positivity)

theorem compare_magnitude (hx : x.Canonical) (hy : y.Canonical) :
    (compare x.exponent y.exponent).then (compare x.significand y.significand) =
      compare x.magnitude y.magnitude := by
  rcases Int.lt_trichotomy x.exponent y.exponent with h | h | h
  · rw [Int.compare_eq_lt.mpr h, compare_lt_iff_lt.mpr (magnitude_lt_of_exponent_lt hx hy h)]
    rfl
  · have hunit : (0 : ℚ) < 2 ^ y.exponent := by positivity
    rw [Int.compare_eq_eq.mpr h, Ordering.eq_then, magnitude, magnitude, h]
    rcases Nat.lt_trichotomy x.significand y.significand with hlt | heq | hgt
    · rw [Nat.compare_eq_lt.mpr hlt, eq_comm, compare_lt_iff_lt]
      exact mul_lt_mul_of_pos_right (by exact_mod_cast hlt) hunit
    · rw [Nat.compare_eq_eq.mpr heq, heq, eq_comm, compare_eq_iff_eq]
    · rw [Nat.compare_eq_gt.mpr hgt, eq_comm, compare_gt_iff_gt]
      exact mul_lt_mul_of_pos_right (by exact_mod_cast hgt) hunit
  · rw [Int.compare_eq_gt.mpr h, compare_gt_iff_gt.mpr (magnitude_lt_of_exponent_lt hy hx h)]
    rfl

end

theorem compare_neg_neg (p q : ℚ) : compare (-p) (-q) = (compare p q).swap := by
  rcases lt_trichotomy p q with h | rfl | h
  · rw [compare_lt_iff_lt.mpr h, compare_gt_iff_gt.mpr (neg_lt_neg h)]
    rfl
  · rw [compare_eq_iff_eq.mpr rfl, compare_eq_iff_eq.mpr rfl]
    rfl
  · rw [compare_gt_iff_gt.mpr h, compare_lt_iff_lt.mpr (neg_lt_neg h)]
    rfl

theorem compare_unpacked {x y : Binary64} (hx : x.Canonical) (hy : y.Canonical) :
    x.unpacked.compare y.unpacked = some (compare x.value y.value) := by
  have hmagnitude := compare_magnitude hx hy
  unfold unpacked value sign
  -- zeros are unpacked without exponent, so each case has to name them
  by_cases hxzero : x.significand = 0 <;> by_cases hyzero : y.significand = 0
  · rw [dif_pos hxzero, dif_pos hyzero, magnitude_eq_zero hxzero, magnitude_eq_zero hyzero, neg_zero,
      ite_self, ite_self, compare_eq_iff_eq.mpr rfl]
    rfl
  · have hpos := magnitude_pos (Nat.pos_of_ne_zero hyzero)
    rw [dif_pos hxzero, dif_neg hyzero, magnitude_eq_zero hxzero, neg_zero, ite_self]
    cases y.negative <;> simp only [Bool.false_eq_true, if_true, if_false]
    · rw [compare_lt_iff_lt.mpr hpos]
      rfl
    · rw [compare_gt_iff_gt.mpr (neg_lt_zero.mpr hpos)]
      rfl
  · have hpos := magnitude_pos (Nat.pos_of_ne_zero hxzero)
    rw [dif_neg hxzero, dif_pos hyzero, magnitude_eq_zero hyzero, neg_zero, ite_self]
    cases x.negative <;> simp only [Bool.false_eq_true, if_true, if_false]
    · rw [compare_gt_iff_gt.mpr hpos]
      rfl
    · rw [compare_lt_iff_lt.mpr (neg_lt_zero.mpr hpos)]
      rfl
  · have hxpos := magnitude_pos (Nat.pos_of_ne_zero hxzero)
    have hypos := magnitude_pos (Nat.pos_of_ne_zero hyzero)
    rw [dif_neg hxzero, dif_neg hyzero]
    cases x.negative <;> cases y.negative <;>
      simp only [Bool.false_eq_true, if_true, if_false, UnpackedFloat.compare, hmagnitude,
        compare_neg_neg]
    · rw [compare_gt_iff_gt.mpr (by linarith : -y.magnitude < x.magnitude)]
    · rw [compare_lt_iff_lt.mpr (by linarith : -x.magnitude < y.magnitude)]

/-- Finite doubles are ordered as the numbers that they are. -/
theorem order_of_ofFloat? {r s : Float} {x y : Binary64} (hr : ofFloat? r = some x)
    (hs : ofFloat? s = some y) : order r s = some (compare x.value y.value) := by
  change r.toModel.unpack.compare s.toModel.unpack = _
  rw [unpack_of_ofFloat? hr, unpack_of_ofFloat? hs]
  exact compare_unpacked (canonical_of_ofFloat? hr).1 (canonical_of_ofFloat? hs).1

/-! ### Covered numbers -/

/-- What a less magnitude covers ends where what a greater one covers begins. -/
theorem high_le_low {x y : Binary64} (hx : x.Canonical) (hy : y.Canonical)
    (h : y.magnitude < x.magnitude) :
    ((y.significand : ℚ) + 1 / 2) * 2 ^ y.exponent ≤ (x.significand - x.below) * 2 ^ x.exponent := by
  have hhalf := below_le x
  have hunit : (0 : ℚ) < 2 ^ y.exponent := by positivity
  rcases Int.lt_trichotomy y.exponent x.exponent with hlt | heq | hgt
  · have hleast : -1074 < x.exponent := hy.le_exponent.trans_lt hlt
    -- the first double of an exponent covers only a quarter of a unit below it
    have hlow : (2 : ℚ) ^ 53 - 1 / 2 ≤ 2 * (x.significand - x.below) := by
      by_cases hfirst : x.significand = 2 ^ 52
      · rw [below, if_pos ⟨hfirst, hleast⟩, hfirst]
        norm_num
      · have hnormal : 2 ^ 52 ≤ x.significand := hx.normal_or_least.resolve_right (by omega)
        have hnext : 2 ^ 52 + 1 ≤ x.significand := by omega
        have hcast : (2 : ℚ) ^ 52 + 1 ≤ x.significand := by exact_mod_cast hnext
        linarith
    calc ((y.significand : ℚ) + 1 / 2) * 2 ^ y.exponent
        ≤ (2 * (x.significand - x.below)) * 2 ^ y.exponent := by
          apply mul_le_mul_of_nonneg_right _ hunit.le
          linarith [hy.significand_add_one_le]
      _ = (x.significand - x.below) * (2 * 2 ^ y.exponent) := by ring
      _ ≤ (x.significand - x.below) * 2 ^ x.exponent := by
          apply mul_le_mul_of_nonneg_left (two_mul_unit_le hlt)
          linarith
  · rw [magnitude, magnitude, heq] at h
    rw [heq] at hunit ⊢
    have hlt : (y.significand : ℚ) < x.significand := lt_of_mul_lt_mul_right h hunit.le
    have hnext : (y.significand : ℚ) + 1 ≤ x.significand := by exact_mod_cast hlt
    apply mul_le_mul_of_nonneg_right _ hunit.le
    linarith
  · exact absurd h (magnitude_lt_of_exponent_lt hx hy hgt).asymm

theorem Covers.magnitude_le {x y : Binary64} {v w : ℚ} (hx : x.Canonical) (hy : y.Canonical)
    (hv : x.Covers v) (hw : y.Covers w) (h : v < w) : x.magnitude ≤ y.magnitude := by
  by_contra hlt
  have hgap := high_le_low hx hy (not_le.mp hlt)
  linarith [hw.high, hv.low]

/-- A number that is a double is covered by no other. -/
theorem Covers.magnitude_eq {x y : Binary64} (hx : x.Canonical) (hy : y.Canonical)
    (hv : x.Covers y.magnitude) : x.magnitude = y.magnitude := by
  have hunit : (0 : ℚ) < 2 ^ y.exponent := by positivity
  rcases lt_trichotomy x.magnitude y.magnitude with h | h | h
  · have hgap := high_le_low hy hx h
    have hbelow : ((y.significand : ℚ) - y.below) * 2 ^ y.exponent < y.magnitude :=
      mul_lt_mul_of_pos_right (by linarith [below_pos y]) hunit
    linarith [hv.high]
  · exact h
  · have hgap := high_le_low hx hy h
    have habove : y.magnitude < ((y.significand : ℚ) + 1 / 2) * 2 ^ y.exponent :=
      mul_lt_mul_of_pos_right (by linarith) hunit
    linarith [hv.low]

theorem exists_nearest_even {v : ℚ} (hv : 0 ≤ v) :
    ∃ m : Nat, (m : ℚ) - 1 / 2 ≤ v ∧ v ≤ m + 1 / 2 ∧
      (m % 2 = 1 → (m : ℚ) - 1 / 2 < v ∧ v < m + 1 / 2) := by
  have hfloor := Nat.floor_le hv
  have hnext := Nat.lt_floor_add_one v
  generalize ⌊v⌋₊ = n at hfloor hnext
  rcases lt_trichotomy v (n + 1 / 2) with h | h | h
  · exact ⟨n, by linarith, by linarith, fun _ => ⟨by linarith, h⟩⟩
  · rcases Nat.mod_two_eq_zero_or_one n with heven | hodd
    · exact ⟨n, by linarith, by linarith, fun hodd => by omega⟩
    · refine ⟨n + 1, ?_, ?_, fun hodd => by omega⟩ <;> push_cast <;> linarith
  · refine ⟨n + 1, ?_, ?_, fun _ => ?_⟩ <;> push_cast
    · linarith
    · linarith
    · exact ⟨by linarith, by linarith⟩

theorem covers_first {v : ℚ} {k : Int} (hk : -1074 < k) (hlow : (2 ^ 52 - 1 / 4) * 2 ^ k ≤ v)
    (hhigh : v ≤ (2 ^ 52 + 1 / 2) * 2 ^ k) : Covers ⟨false, 2 ^ 52, k⟩ v := by
  have hbelow : below ⟨false, 2 ^ 52, k⟩ = 1 / 4 := if_pos ⟨rfl, hk⟩
  refine ⟨?_, ?_, fun hodd => absurd hodd (by norm_num)⟩
  · rw [hbelow]
    exact_mod_cast hlow
  · exact_mod_cast hhigh

/-- Every number between two powers of two, unless it is too small or too great, is covered. -/
theorem exists_covers {v : ℚ} {k : Int} (hk : -1074 < k ∧ k ≤ 970) (hlow : 2 ^ 52 * 2 ^ k ≤ v)
    (hhigh : v < 2 ^ 53 * 2 ^ k) :
    ∃ m e, 2 ^ 52 ≤ m ∧ m < 2 ^ 53 ∧ -1074 < e ∧ e ≤ 971 ∧ Covers ⟨false, m, e⟩ v := by
  have hunit : (0 : ℚ) < 2 ^ k := by positivity
  have hpos : 0 ≤ v / 2 ^ k := div_nonneg (le_trans (by positivity) hlow) hunit.le
  obtain ⟨m, hmlow, hmhigh, htie⟩ := exists_nearest_even hpos
  rw [le_div_iff₀ hunit] at hmlow
  rw [div_le_iff₀ hunit] at hmhigh
  rw [lt_div_iff₀ hunit, div_lt_iff₀ hunit] at htie
  have hge : 2 ^ 52 ≤ m := by
    have hlt : (2 : ℚ) ^ 52 < m + 1 := by
      apply lt_of_mul_lt_mul_right _ hunit.le
      linarith
    have hlt : 2 ^ 52 < m + 1 := by exact_mod_cast hlt
    omega
  have hle : m ≤ 2 ^ 53 := by
    have hlt : (m : ℚ) < 2 ^ 53 + 1 := by
      apply lt_of_mul_lt_mul_right _ hunit.le
      linarith
    have hlt : m < 2 ^ 53 + 1 := by exact_mod_cast hlt
    omega
  by_cases hfirst : m = 2 ^ 52
  · subst hfirst
    refine ⟨2 ^ 52, k, le_rfl, by decide, hk.1, by omega, covers_first hk.1 ?_ ?_⟩
    · linarith
    · exact_mod_cast hmhigh
  · rcases hle.lt_or_eq with hlt | rfl
    · have hbelow : below ⟨false, m, k⟩ = 1 / 2 := if_neg fun h => hfirst h.1
      refine ⟨m, k, hge, hlt, hk.1, by omega, ?_, hmhigh, ?_⟩
      · rw [hbelow]
        exact hmlow
      · rw [hbelow]
        exact htie
    · -- Rounding up has carried into a bit more.
      push_cast at hmlow
      refine ⟨2 ^ 52, k + 1, le_rfl, by decide, by omega, by omega, covers_first (by omega) ?_ ?_⟩
      · rw [two_zpow_add_one]
        linarith
      · rw [two_zpow_add_one]
        linarith

/-! ### The double of an integer -/

theorem ofFloat?_ofNat {m n : Nat} {e : Int} (hm : 2 ^ 52 ≤ m ∧ m < 2 ^ 53)
    (he : -1074 < e ∧ e ≤ 971) (hn : 0 < n) (hv : Covers ⟨false, m, e⟩ n) :
    ofFloat? (Float.ofNat n) = some ⟨false, m, e⟩ := by
  have hx : Canonical ⟨false, m, e⟩ := ⟨hm.2, he.1.le, .inl hm.1⟩
  have hpos : 0 < m := by omega
  have hcovers : Covers ⟨false, m, e⟩
      ((n : ℚ) * 10 ^ (if false then -((0 : Nat) : Int) else (0 : Nat))) := by
    simpa using hv
  have hfloat : Float.ofNat n = .ofModel (.pack (.finite .positive m e hpos)) :=
    floatOfScientific_of_covers hx he.2 hpos hn hcovers
  have hunpacked : unpacked ⟨false, m, e⟩ = .finite .positive m e hpos := dif_neg hpos.ne'
  rw [hfloat, ← hunpacked]
  exact ofFloat?_pack hx he.2

theorem ofFloat?_neg {r : Float} {x : Binary64} (h : ofFloat? r = some x) :
    ofFloat? (-r) = some { x with negative := !x.negative } := by
  obtain ⟨hx, hfinite⟩ := canonical_of_ofFloat? h
  rw [neg_of_ofFloat? h]
  exact ofFloat?_pack ⟨hx.significand_lt, hx.le_exponent, hx.normal_or_least⟩ hfinite

theorem exists_ofFloat?_ofNat {n : Nat} (hlt : n < 2 ^ 64) :
    ∃ x, ofFloat? (Float.ofNat n) = some x ∧ x.negative = false ∧ x.Covers n := by
  rcases Nat.eq_zero_or_pos n with rfl | hn
  · have hzero : ofFloat? (Float.ofNat 0) = some ⟨false, 0, -1074⟩ := by decide +kernel
    refine ⟨_, hzero, rfl, ?_⟩
    simpa using covers_self ⟨false, 0, -1074⟩
  · have hlog : n.log2 < 64 := (Nat.log2_lt hn.ne').mpr hlt
    have hlow : (2 : ℚ) ^ 52 * 2 ^ (n.log2 - 52 : Int) ≤ n := by
      calc (2 : ℚ) ^ 52 * 2 ^ (n.log2 - 52 : Int) = 2 ^ n.log2 := by
            rw [← zpow_natCast, ← zpow_natCast, ← zpow_add₀ (by norm_num)]
            congr 1
            omega
        _ ≤ n := by exact_mod_cast Nat.log2_self_le hn.ne'
    have hhigh : (n : ℚ) < 2 ^ 53 * 2 ^ (n.log2 - 52 : Int) := by
      calc (n : ℚ) < 2 ^ (n.log2 + 1 : Int) := lt_two_pow_log2 n
        _ = 2 ^ 53 * 2 ^ (n.log2 - 52 : Int) := by
            rw [← zpow_natCast, ← zpow_add₀ (by norm_num)]
            congr 1
            omega
    obtain ⟨m, e, hm, hm', he, he', hv⟩ := exists_covers (by omega) hlow hhigh
    exact ⟨_, ofFloat?_ofNat ⟨hm, hm'⟩ ⟨he, he'⟩ hn hv, rfl, hv⟩

/-- An integer of 64 bits becomes the double with its sign that covers its magnitude. -/
theorem exists_ofFloat?_ofInt {n : Int} (hn : IsInt64 n) :
    ∃ x, ofFloat? (Float.ofInt n) = some x ∧ x.negative = decide (n < 0) ∧ x.Covers n.natAbs := by
  obtain ⟨hlow, hhigh⟩ := hn
  cases n with
  | ofNat n =>
    have hnonneg : ¬ Int.ofNat n < 0 := Int.not_lt.mpr (Int.natCast_nonneg n)
    rw [Int.ofNat_eq_natCast] at hhigh
    obtain ⟨x, hx, hpositive, hv⟩ := exists_ofFloat?_ofNat (n := n) (by omega)
    exact ⟨x, hx, by rw [hpositive, decide_eq_false hnonneg], hv⟩
  | negSucc n =>
    obtain ⟨x, hx, hpositive, hv⟩ := exists_ofFloat?_ofNat (n := n + 1) (by omega)
    refine ⟨_, ofFloat?_neg hx, ?_, hv.low, hv.high, hv.tie⟩
    simp [hpositive]

/-- The number that an integer becomes as a double. -/
def nearest (n : Int) : ℚ := (ofFloat? (Float.ofInt n)).elim 0 value

theorem nearest_of_ofFloat? {n : Int} {x : Binary64} (h : ofFloat? (Float.ofInt n) = some x) :
    nearest n = x.value := by
  rw [nearest, h, Option.elim_some]

section

variable {i j : Int} (hi : IsInt64 i) (hj : IsInt64 j)
include hi hj

theorem order_ofInt :
    order (Float.ofInt i) (Float.ofInt j) = some (compare (nearest i) (nearest j)) := by
  obtain ⟨x, hx, -, -⟩ := exists_ofFloat?_ofInt hi
  obtain ⟨y, hy, -, -⟩ := exists_ofFloat?_ofInt hj
  rw [order_of_ofFloat? hx hy, nearest_of_ofFloat? hx, nearest_of_ofFloat? hy]

theorem ofInt_lt_iff : Float.ofInt i < Float.ofInt j ↔ nearest i < nearest j := by
  rw [lt_iff_order, order_ofInt hi hj, Option.some.injEq, compare_lt_iff_lt]

theorem ofInt_beq_iff : (Float.ofInt i == Float.ofInt j) = true ↔ nearest i = nearest j := by
  rw [beq_iff_order, order_ofInt hi hj, Option.some.injEq, compare_eq_iff_eq]

/-- Rounding to doubles does not turn the order of integers round. -/
theorem nearest_mono (h : i ≤ j) : nearest i ≤ nearest j := by
  rcases h.eq_or_lt with rfl | hlt
  · exact le_rfl
  obtain ⟨x, hx, hxsign, hxcovers⟩ := exists_ofFloat?_ofInt hi
  obtain ⟨y, hy, hysign, hycovers⟩ := exists_ofFloat?_ofInt hj
  have hxcanonical := (canonical_of_ofFloat? hx).1
  have hycanonical := (canonical_of_ofFloat? hy).1
  have hxnonneg := x.magnitude_nonneg
  have hynonneg := y.magnitude_nonneg
  rw [nearest_of_ofFloat? hx, nearest_of_ofFloat? hy, value, value, hxsign, hysign]
  by_cases hineg : i < 0 <;> by_cases hjneg : j < 0 <;>
    simp only [hineg, hjneg, decide_true, decide_false, Bool.false_eq_true, if_true, if_false]
  · have habs : (j.natAbs : ℚ) < i.natAbs := by exact_mod_cast (by omega : j.natAbs < i.natAbs)
    exact neg_le_neg (hycovers.magnitude_le hycanonical hxcanonical hxcovers habs)
  · linarith
  · omega
  · have habs : (i.natAbs : ℚ) < j.natAbs := by exact_mod_cast (by omega : i.natAbs < j.natAbs)
    exact hxcovers.magnitude_le hxcanonical hycanonical hycovers habs

end

theorem exists_magnitude_eq {n : Nat} (h : n ≤ 2 ^ 53) :
    ∃ y : Binary64, y.Canonical ∧ y.magnitude = n := by
  rcases Nat.eq_zero_or_pos n with rfl | hn
  · exact ⟨⟨false, 0, -1074⟩, ⟨by decide, le_rfl, .inr rfl⟩, magnitude_eq_zero rfl⟩
  rcases h.lt_or_eq with hlt | rfl
  · exact ⟨scaled n, scaled_canonical hn hlt, scaled_value⟩
  · refine ⟨⟨false, 2 ^ 52, 1⟩, ⟨by decide, by decide, .inl le_rfl⟩, ?_⟩
    norm_num [magnitude]

theorem nearest_eq {n : Int} (h : n.natAbs ≤ 2 ^ 53) : nearest n = n := by
  obtain ⟨x, hx, hsign, hv⟩ := exists_ofFloat?_ofInt (n := n) ⟨by omega, by omega⟩
  obtain ⟨y, hy, hvalue⟩ := exists_magnitude_eq h
  rw [← hvalue] at hv
  rw [nearest_of_ofFloat? hx, value, hsign, hv.magnitude_eq (canonical_of_ofFloat? hx).1 hy, hvalue]
  rw [Nat.cast_natAbs]
  by_cases hneg : n < 0 <;>
    simp only [hneg, decide_true, decide_false, Bool.false_eq_true, if_true, if_false]
  · rw [abs_of_neg hneg, Int.cast_neg, neg_neg]
  · rw [abs_of_nonneg (not_lt.mp hneg)]

/-- Integers stay apart as doubles unless both are greater, or both less, than what 53 bits hold. -/
theorem nearest_lt {i j : Int} (hi : IsInt64 i) (hj : IsInt64 j) (h : i < j) (hlow : i < 2 ^ 53)
    (hhigh : -2 ^ 53 < j) : nearest i < nearest j := by
  -- Some integer from `i` to `j` is exact, and so is the next one.
  obtain ⟨k, hk, hk', hik, hkj⟩ :
      ∃ k : Int, k.natAbs ≤ 2 ^ 53 ∧ (k + 1).natAbs ≤ 2 ^ 53 ∧ i ≤ k ∧ k + 1 ≤ j :=
    ⟨max i (-2 ^ 53), by omega, by omega, by omega, by omega⟩
  have hint : IsInt64 k ∧ IsInt64 (k + 1) := ⟨⟨by omega, by omega⟩, ⟨by omega, by omega⟩⟩
  calc nearest i ≤ nearest k := nearest_mono hi hint.1 hik
    _ = k := nearest_eq hk
    _ < (k + 1 : Int) := by exact_mod_cast Int.lt_succ k
    _ = nearest (k + 1) := (nearest_eq hk').symm
    _ ≤ nearest j := nearest_mono hint.2 hj hkj

end Binary64
end PathQuery
