import Mathlib
import PathQuery.Number.RealText

/-!
# The bits of doubles

Which doubles are infinite, which are NaN, and that no operation used in reading a numeral leads to
NaN. The logical model of `Float` is a pattern of 64 bits that is unpacked, computed with, rounded
and packed again.
-/

namespace PathQuery
namespace Binary64

open Float.Model (Format UnpackedFloat)
open Float.Model.UnpackedFloat

/-! ### Fields -/

/-- The eleven bits of the exponent. -/
def field (r : Float) : Nat := r.toBits.toNat / leastNormal % 2048

/-- The bits of the significand. -/
def fraction (r : Float) : Nat := r.toBits.toNat % leastNormal

theorem unpackExponent_toNat (b : BitVec Format.binary64.numBits) :
    (unpackExponent b).toNat = b.toNat / leastNormal % 2048 := by
  simp [unpackExponent, BitVec.extractLsb_toNat, Nat.shiftRight_eq_div_pow, leastNormal]

theorem unpackMantissa_toNat (b : BitVec Format.binary64.numBits) :
    (unpackMantissa b).toNat = b.toNat % leastNormal := by
  simp [unpackMantissa, BitVec.extractLsb_toNat, leastNormal]

theorem unpackExponent_eq_ones (r : Float) :
    @unpackExponent .binary64 r.toModel.toBits.toBitVec = -1#_ ↔ field r = 2047 := by
  rw [← BitVec.toNat_inj, unpackExponent_toNat]
  rfl

theorem unpackMantissa_eq_zero (r : Float) :
    @unpackMantissa .binary64 r.toModel.toBits.toBitVec = 0#_ ↔ fraction r = 0 := by
  rw [← BitVec.toNat_inj, unpackMantissa_toNat]
  rfl

theorem isNaN_iff (r : Float) : r.isNaN = true ↔ field r = 2047 ∧ fraction r ≠ 0 := by
  rw [← unpackExponent_eq_ones, Ne, ← unpackMantissa_eq_zero]
  simp only [Float.isNaN, Float.Model.isNaN, Float.Model.unpack, UnpackedFloat.unpack]
  by_cases hexponent : @unpackExponent .binary64 r.toModel.toBits.toBitVec = -1#_
  · by_cases hmantissa : @unpackMantissa .binary64 r.toModel.toBits.toBitVec = 0#_
    · simp [hexponent, hmantissa, UnpackedFloat.isNaN]
    · simp [hexponent, hmantissa, UnpackedFloat.isNaN]
  · simp only [hexponent, if_false, false_and, iff_false]
    split
    · split <;> simp [UnpackedFloat.isNaN]
    · simp [UnpackedFloat.isNaN]

theorem negative_of_ofFloat? {r : Float} {x : Binary64} (h : ofFloat? r = some x) :
    x.negative = decide (signBit ≤ r.toBits.toNat) := by
  simp only [ofFloat?] at h
  split at h
  · cases h
  · split at h <;> cases h <;> rfl

/-! ### Infinities -/

theorem toBits_inj {r s : Float} (h : r.toBits = s.toBits) : r = s := by
  obtain ⟨⟨b, hb⟩⟩ := r
  obtain ⟨⟨c, hc⟩⟩ := s
  cases h
  rfl

def infinity : Float := 1.0 / 0.0

theorem toBits_infinity : infinity.toBits = 0x7FF0000000000000 := by decide +kernel

theorem toBits_neg_infinity : (-infinity).toBits = 0xFFF0000000000000 := by decide +kernel

/-- What is neither finite nor NaN is an infinity. -/
theorem infinite_cases {r : Float} (h : ofFloat? r = none) (hnan : r.isNaN = false) :
    r = infinity ∨ r = -infinity := by
  have hfield : field r = 2047 := by
    unfold ofFloat? at h
    by_cases hfield : field r = 2047
    · exact hfield
    · simp only [field] at hfield
      simp only [hfield, if_false] at h
      split at h <;> cases h
  have hfraction : fraction r = 0 := by
    by_cases hfraction : fraction r = 0
    · exact hfraction
    · rw [(isNaN_iff r).mpr ⟨hfield, hfraction⟩] at hnan
      cases hnan
  have hlt := r.toBits.toNat_lt
  unfold field at hfield
  unfold fraction at hfraction
  unfold leastNormal at hfield hfraction
  have hbits : r.toBits.toNat = 0x7FF0000000000000 ∨ r.toBits.toNat = 0xFFF0000000000000 := by
    omega
  rcases hbits with hbits | hbits
  · left
    apply toBits_inj
    rw [toBits_infinity, ← UInt64.toNat_inj, hbits]
    rfl
  · right
    apply toBits_inj
    rw [toBits_neg_infinity, ← UInt64.toNat_inj, hbits]
    rfl

theorem infinity_lt_zero : ¬ infinity < 0.0 := by decide +kernel

theorem neg_infinity_lt_zero : -infinity < 0.0 := by decide +kernel


/-! ### NaN -/

theorem pack_isNaN {u : UnpackedFloat} (hu : u.isNaN = false) :
    (Float.ofModel (.pack u)).isNaN = false := by
  rw [Bool.eq_false_iff, Ne, isNaN_iff, ← unpackExponent_eq_ones, Ne, ← unpackMantissa_eq_zero]
  rintro ⟨hexponent, hmantissa⟩
  revert hexponent hmantissa
  simp only [Float.Model.pack]
  fun_cases UnpackedFloat.pack with
  | case1 => cases hu
  | case2 s => simp [packedInfinity]
  | case3 s => simp [packedZero]
  | case4 s m e hm biasedExponent h => simp [packedInfinity]
  | case5 s m e hm actualMantissaBits biasedExponent h₁ h₂ =>
    intro hexponent
    exfalso
    rw [unpackExponent_packComponents, ← BitVec.toNat_inj] at hexponent
    have hlt : ¬ 2048 ≤ biasedExponent + 1 := h₁
    have hmod : biasedExponent % 2048 = 2047 := by simpa using hexponent
    omega
  | case6 s m e hm actualMantissaBits biasedExponent h₁ h₂ => simp

theorem roundWithAccuracy_isNaN (spec : Format) (s : Sign) (m : Nat) (e : Int) (a : Accuracy) :
    (roundWithAccuracy spec s m e a).isNaN = false := by
  unfold roundWithAccuracy
  simp only
  split <;> rfl

theorem mul_finite_isNaN {u : UnpackedFloat} (hu : u.isNaN = false) (spec : Format) (s : Sign)
    (m : Nat) (e : Int) (hm : 0 < m) : (u.mul spec (.finite s m e hm)).isNaN = false := by
  cases u with
  | notANumber => cases hu
  | infinity s => rfl
  | zero s => rfl
  | finite s m e hm => exact roundWithAccuracy_isNaN ..

theorem div_finite_isNaN {u : UnpackedFloat} (hu : u.isNaN = false) (spec : Format) (s : Sign)
    (m : Nat) (e : Int) (hm : 0 < m) : (u.div spec (.finite s m e hm)).isNaN = false := by
  cases u with
  | notANumber => cases hu
  | infinity s => rfl
  | zero s => rfl
  | finite s m e hm => exact roundWithAccuracy_isNaN ..

theorem ofScientific_isNaN (spec : Format) (m : Nat) (e : Int) :
    (UnpackedFloat.ofScientific spec m e).isNaN = false := by
  unfold UnpackedFloat.ofScientific
  split
  · rfl
  split
  · rfl
  split
  · rfl
  split
  · exact mul_finite_isNaN rfl ..
  · exact div_finite_isNaN rfl ..

theorem neg_isNaN {r : Float} (hr : r.isNaN = false) : (-r).isNaN = false := by
  refine pack_isNaN ?_
  have hu : r.toModel.unpack.isNaN = false := hr
  cases hunpack : r.toModel.unpack with
  | notANumber =>
    rw [hunpack] at hu
    cases hu
  | infinity s => rfl
  | zero s => rfl
  | finite s m e hm => rfl

theorem toFloat_ofNat_isNaN (m : Nat) : m.toUInt64.toFloat.isNaN = false := by
  refine pack_isNaN ?_
  simp only [UnpackedFloat.ofUInt64, UnpackedFloat.ofNat, UnpackedFloat.ofInt,
    UnpackedFloat.normalize, UnpackedFloat.round]
  split
  · exact roundWithAccuracy_isNaN ..
  · rfl
  · exact roundWithAccuracy_isNaN ..

def isNonzero : UnpackedFloat → Bool
  | .finite .. => true
  | _ => false

theorem isNonzero_powersOfTen : ∀ e : Fin Float.exactlyRepresentablePowersOfTen.size,
    isNonzero Float.exactlyRepresentablePowersOfTen[e].toModel.unpack = true := by
  decide +kernel

theorem mul_isNaN {r s : Float} (hr : r.isNaN = false) (hs : isNonzero s.toModel.unpack = true) :
    (r * s).isNaN = false := by
  refine pack_isNaN ?_
  cases hunpack : s.toModel.unpack with
  | finite s m e hm => exact mul_finite_isNaN hr ..
  | _ =>
    rw [hunpack] at hs
    cases hs

theorem div_isNaN {r s : Float} (hr : r.isNaN = false) (hs : isNonzero s.toModel.unpack = true) :
    (r / s).isNaN = false := by
  refine pack_isNaN ?_
  cases hunpack : s.toModel.unpack with
  | finite s m e hm => exact div_finite_isNaN hr ..
  | _ =>
    rw [hunpack] at hs
    cases hs

theorem floatOfScientific_isNaN (m : Nat) (s : Bool) (e : Nat) :
    (Float.ofScientific m s e).isNaN = false := by
  unfold Float.ofScientific
  split
  · next h =>
    have hbound : e < Float.exactlyRepresentablePowersOfTen.size := by
      simp [Float.exactlyRepresentablePowersOfTen]
      omega
    have hpower := isNonzero_powersOfTen ⟨e, hbound⟩
    cases s with
    | true => exact div_isNaN (toFloat_ofNat_isNaN m) hpower
    | false => exact mul_isNaN (toFloat_ofNat_isNaN m) hpower
  · exact pack_isNaN (ofScientific_isNaN ..)

end Binary64

/-- No numeral is read as NaN. -/
theorem Decimal.toFloat_isNaN (d : Decimal) : d.toFloat.isNaN = false := by
  unfold toFloat
  simp only
  split
  · decide +kernel
  split
  · decide +kernel
  · exact Binary64.floatOfScientific_isNaN ..

end PathQuery
