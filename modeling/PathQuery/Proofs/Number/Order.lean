import PathQuery.Proofs.Number.Doubles

/-!
# The order of doubles

The comparisons of two doubles are answers of one partial order, in which only NaN has no place. The
order is turned round when the doubles are exchanged, and their difference keeps its magnitude.
-/

namespace PathQuery
namespace Binary64

open Float.Model (Format UnpackedFloat)
open Float.Model.UnpackedFloat

/-! ### Comparing -/

/-- The order of two doubles; NaN is not ordered. -/
def order (r s : Float) : Option Ordering := r.toModel.compare s.toModel

theorem lt_iff_order {r s : Float} : r < s ↔ order r s = some .lt := by
  change decide (_ = true) = true ↔ _
  rw [decide_eq_true_iff]
  exact beq_iff_eq

theorem beq_iff_order {r s : Float} : (r == s) = true ↔ order r s = some .eq :=
  beq_iff_eq (a := order r s)

theorem unpacked_compare_swap (u v : UnpackedFloat) :
    v.compare u = (u.compare v).map Ordering.swap := by
  cases u with
  | notANumber => cases v <;> rfl
  | infinity s => cases s <;> cases v with
    | infinity t => cases t <;> rfl
    | _ => rfl
  | zero s => cases v with
    | infinity t => cases t <;> rfl
    | finite t m e hm => cases t <;> rfl
    | _ => rfl
  | finite s m e hm => cases v with
    | notANumber => rfl
    | infinity t => cases s <;> cases t <;> rfl
    | zero t => cases s <;> rfl
    | finite t m' e' hm' =>
      have hswap : (compare e' e).then (compare m' m) = ((compare e e').then (compare m m')).swap := by
        rw [Ordering.swap_then, Int.compare_swap, Nat.compare_swap]
      cases s <;> cases t
      · simp only [UnpackedFloat.compare, hswap, Option.map_some]
      · rfl
      · rfl
      · simp only [UnpackedFloat.compare, hswap, Option.map_some]

theorem order_swap (r s : Float) : order s r = (order r s).map Ordering.swap :=
  unpacked_compare_swap _ _

theorem beq_swap (r s : Float) : (s == r) = (r == s) := by
  rw [Bool.eq_iff_iff, beq_iff_order, beq_iff_order, order_swap r s]
  cases order r s with
  | none => rfl
  | some o => cases o <;> simp

theorem unpacked_compare_self {u : UnpackedFloat} (hu : u.isNaN = false) : u.compare u = some .eq := by
  cases u with
  | notANumber => cases hu
  | infinity s => cases s <;> rfl
  | zero s => rfl
  | finite s m e hm =>
    have heq : (compare e e).then (compare m m) = .eq := by
      rw [Int.compare_eq_eq.mpr rfl, Nat.compare_eq_eq.mpr rfl]
      rfl
    cases s with
    | negative =>
      simp only [UnpackedFloat.compare, heq]
      rfl
    | positive => simp only [UnpackedFloat.compare, heq]

theorem beq_self_of_isFinite {r : Float} (h : r.isFinite = true) : (r == r) = true := by
  have hnan : r.toModel.unpack.isNaN = false := by
    have hfinite : r.toModel.unpack.isFinite = true := h
    cases hunpack : r.toModel.unpack with
    | notANumber =>
      rw [hunpack] at hfinite
      cases hfinite
    | _ => rfl
  exact beq_iff_order.mpr (unpacked_compare_self hnan)

/-! ### Differences -/

theorem abs_rounded_sign (spec : Format) (m : Nat) (e : Int) :
    (UnpackedFloat.round spec .negative m e).abs = (UnpackedFloat.round spec .positive m e).abs := by
  simp only [UnpackedFloat.round, roundWithAccuracy]
  split <;> rfl

theorem abs_normalize_neg (spec : Format) (m e : Int) (s : Float.Model.UnpackedFloat.Sign) :
    (UnpackedFloat.normalize spec (-m) e s).abs = (UnpackedFloat.normalize spec m e s).abs := by
  unfold UnpackedFloat.normalize
  rcases Int.lt_trichotomy m 0 with hm | rfl | hm
  · have hneg : 0 < -m := by omega
    rw [Int.compare_eq_lt.mpr hm, Int.compare_eq_gt.mpr hneg]
    exact (abs_rounded_sign ..).symm
  · rfl
  · have hneg : -m < 0 := by omega
    rw [Int.compare_eq_gt.mpr hm, Int.compare_eq_lt.mpr hneg, Int.neg_neg]
    exact abs_rounded_sign ..

theorem abs_unpacked_sub_comm (spec : Format) (u v : UnpackedFloat) :
    (u.sub spec v).abs = (v.sub spec u).abs := by
  cases u with
  | notANumber => cases v <;> rfl
  | infinity s => cases v with
    | infinity t => cases s <;> cases t <;> rfl
    | _ => rfl
  | zero s => cases v with
    | zero t => cases s <;> cases t <;> rfl
    | _ => rfl
  | finite s m e hm => cases v with
    | finite t m' e' hm' =>
      simp only [UnpackedFloat.sub, Int.min_comm e' e]
      rw [← abs_normalize_neg, Int.neg_sub]
    | _ => rfl

theorem abs_unpack_congr {b c : BitVec Format.binary64.numBits}
    (hexponent : unpackExponent b = unpackExponent c) (hmantissa : unpackMantissa b = unpackMantissa c) :
    (UnpackedFloat.unpack .binary64 b).abs = (UnpackedFloat.unpack .binary64 c).abs := by
  simp only [UnpackedFloat.unpack, hexponent, hmantissa]
  split
  · split <;> rfl
  · split
    · split <;> rfl
    · rfl

theorem exists_packComponents_abs (u : UnpackedFloat) :
    ∃ s t e m, UnpackedFloat.pack .binary64 u = packComponents .binary64 s e m ∧
      UnpackedFloat.pack .binary64 u.abs = packComponents .binary64 t e m := by
  cases u with
  | notANumber => exact ⟨_, _, _, _, rfl, rfl⟩
  | infinity s => exact ⟨_, _, _, _, rfl, rfl⟩
  | zero s => exact ⟨_, _, _, _, rfl, rfl⟩
  | finite s m e hm =>
    simp only [UnpackedFloat.abs, UnpackedFloat.pack, packedInfinity]
    split
    · exact ⟨_, _, _, _, rfl, rfl⟩
    · split
      · exact ⟨_, _, _, _, rfl, rfl⟩
      · exact ⟨_, _, _, _, rfl, rfl⟩

/-- The sign of what is packed has no part in the magnitude of what is unpacked. -/
theorem abs_unpack_pack (u : UnpackedFloat) :
    (UnpackedFloat.unpack .binary64 (UnpackedFloat.pack .binary64 u.abs)).abs =
      (UnpackedFloat.unpack .binary64 (UnpackedFloat.pack .binary64 u)).abs := by
  obtain ⟨s, t, e, m, hu, habs⟩ := exists_packComponents_abs u
  rw [hu, habs]
  apply abs_unpack_congr
  · rw [unpackExponent_packComponents, unpackExponent_packComponents]
  · rw [unpackMantissa_packComponents, unpackMantissa_packComponents]

theorem abs_sub_comm (r s : Float) : (r - s).abs = (s - r).abs := by
  change Float.ofModel (.pack (UnpackedFloat.unpack _ (UnpackedFloat.pack .binary64
      (r.toModel.unpack.sub .binary64 s.toModel.unpack))).abs) =
    Float.ofModel (.pack (UnpackedFloat.unpack _ (UnpackedFloat.pack .binary64
      (s.toModel.unpack.sub .binary64 r.toModel.unpack))).abs)
  rw [← abs_unpack_pack, abs_unpacked_sub_comm, abs_unpack_pack]

end Binary64
end PathQuery
