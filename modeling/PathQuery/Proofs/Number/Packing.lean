import PathQuery.Proofs.Number.Rounding

/-!
# The parts of a double and its bits

The significand and the exponent of a finite double determine it, and the logical model of `Float`
packs exactly these parts into its bits and unpacks them again.
-/

namespace PathQuery
namespace Binary64

open Float.Model (Format UnpackedFloat)
open Float.Model.UnpackedFloat

def sign (x : Binary64) : Float.Model.UnpackedFloat.Sign :=
  if x.negative then .negative else .positive

def unpacked (x : Binary64) : UnpackedFloat :=
  if h : x.significand = 0 then .zero x.sign
  else .finite x.sign x.significand x.exponent (Nat.pos_of_ne_zero h)

/-! ### Parts and bits -/

theorem ofFloat?_eq_some {r : Float} {x : Binary64} (h : ofFloat? r = some x) :
    field r ≠ 2047 ∧ x.negative = decide (signBit ≤ r.toBits.toNat) ∧
      (field r = 0 ∧ x.significand = fraction r ∧ x.exponent = -1074 ∨
        field r ≠ 0 ∧ x.significand = leastNormal + fraction r ∧
          x.exponent = (field r : Int) - 1075) := by
  unfold ofFloat? at h
  by_cases hinfinite : field r = 2047
  · have hnone : ofFloat? r = none := if_pos hinfinite
    unfold ofFloat? at hnone
    rw [hnone] at h
    cases h
  · refine ⟨hinfinite, ?_⟩
    simp only [field, fraction] at hinfinite ⊢
    by_cases hzero : r.toBits.toNat / leastNormal % 2048 = 0
    · simp only [hzero, if_true] at h
      cases h
      exact ⟨rfl, .inl ⟨hzero, rfl, rfl⟩⟩
    · simp only [hinfinite, hzero, if_false] at h
      cases h
      exact ⟨rfl, .inr ⟨hzero, rfl, rfl⟩⟩

theorem field_lt (r : Float) : field r < 2048 := Nat.mod_lt _ (by decide)

theorem fraction_lt (r : Float) : fraction r < leastNormal := Nat.mod_lt _ (by decide)

theorem leastNormal_eq : leastNormal = 2 ^ 52 := by decide

theorem canonical_of_ofFloat? {r : Float} {x : Binary64} (h : ofFloat? r = some x) :
    x.Canonical ∧ x.exponent ≤ 971 := by
  have hfraction := fraction_lt r
  have hfield := field_lt r
  rw [leastNormal_eq] at hfraction
  obtain ⟨hfinite, -, ⟨hzero, hsignificand, hexponent⟩ | ⟨hzero, hsignificand, hexponent⟩⟩ :=
    ofFloat?_eq_some h
  · exact ⟨⟨by omega, by omega, .inr hexponent⟩, by omega⟩
  · rw [leastNormal_eq] at hsignificand
    exact ⟨⟨by omega, by omega, .inl (by omega)⟩, by omega⟩

theorem toBits_eq (r : Float) :
    r.toBits.toNat =
      (if signBit ≤ r.toBits.toNat then signBit else 0) + field r * leastNormal + fraction r := by
  have hlt := r.toBits.toNat_lt
  unfold field fraction leastNormal signBit
  split <;> omega

theorem ofFloat?_inj {r s : Float} {x : Binary64} (hr : ofFloat? r = some x)
    (hs : ofFloat? s = some x) : r = s := by
  obtain ⟨-, hrsign, hrparts⟩ := ofFloat?_eq_some hr
  obtain ⟨-, hssign, hsparts⟩ := ofFloat?_eq_some hs
  have hsigns : (signBit ≤ r.toBits.toNat) ↔ (signBit ≤ s.toBits.toNat) := by
    rw [hrsign] at hssign
    simpa using hssign
  have hrfraction := fraction_lt r
  have hsfraction := fraction_lt s
  have hfields : field r = field s ∧ fraction r = fraction s := by omega
  apply toBits_inj
  rw [← UInt64.toNat_inj, toBits_eq r, toBits_eq s, hfields.1, hfields.2]
  simp only [hsigns]

/-! ### Packing and unpacking -/

theorem packComponents_toNat (s : Float.Model.UnpackedFloat.Sign) (e : BitVec 11) (m : BitVec 52) :
    (packComponents .binary64 s e m).toNat =
      s.toBitVec.toNat * signBit + e.toNat * leastNormal + m.toNat := by
  have he := e.isLt
  have hm := m.isLt
  simp only [packComponents, BitVec.toNat_append]
  rw [← Nat.shiftLeft_add_eq_or_of_lt he, ← Nat.shiftLeft_add_eq_or_of_lt hm]
  simp only [Nat.shiftLeft_eq, signBit, leastNormal]
  omega

theorem toBitVec_sign (x : Binary64) :
    x.sign.toBitVec.toNat = if x.negative then 1 else 0 := by
  unfold sign
  cases x.negative <;> rfl

theorem log2_eq_iff {m : Nat} (hm : m < 2 ^ 53) : m.log2 + 1 = 53 ↔ 2 ^ 52 ≤ m := by
  by_cases hzero : m = 0
  · subst hzero
    decide
  · have hlt := (Nat.log2_lt hzero).mpr hm
    rw [← Nat.le_log2 hzero]
    omega

theorem toBits_pack {x : Binary64} (hx : x.Canonical) (hfinite : x.exponent ≤ 971) :
    (Float.ofModel (.pack x.unpacked)).toBits.toNat =
      (if x.negative then 1 else 0) * signBit +
        (if x.significand < leastNormal then 0 else (x.exponent + 1075).toNat) * leastNormal +
          x.significand % leastNormal := by
  have hlt := hx.significand_lt
  have hle := hx.le_exponent
  change (UnpackedFloat.pack .binary64 x.unpacked).toNat = _
  rw [leastNormal_eq]
  unfold unpacked
  by_cases hzero : x.significand = 0
  · rw [dif_pos hzero, hzero]
    simp only [UnpackedFloat.pack, packedZero]
    rw [packComponents_toNat, toBitVec_sign]
    simp
  · rw [dif_neg hzero]
    have hbias : (x.exponent + (Format.binary64.exponentBias : Nat) +
        (Format.binary64.mantissaBitsWithoutImplicit : Nat)).toNat = (x.exponent + 1075).toNat := by
      simp only [Format.exponentBias]
      omega
    have hsmall : ¬ 2048 ≤ (x.exponent + 1075).toNat + 1 := by omega
    simp only [UnpackedFloat.pack, hbias]
    rw [if_neg hsmall]
    have hbits : Format.binary64.mantissaBits = 53 := rfl
    rw [hbits]
    by_cases hnormal : 2 ^ 52 ≤ x.significand
    · have hlarge : ¬ x.significand < 2 ^ 52 := by omega
      rw [if_pos ((log2_eq_iff hlt).mpr hnormal), packComponents_toNat, toBitVec_sign,
        if_neg hlarge, leastNormal_eq, BitVec.toNat_ofNat, BitVec.toNat_ofNat]
      congr 3
      exact Nat.mod_eq_of_lt (show _ < 2048 by omega)
    · have hsmall : x.significand < 2 ^ 52 := by omega
      rw [if_neg (by rw [log2_eq_iff hlt]; exact hnormal), packComponents_toNat, toBitVec_sign,
        if_pos hsmall, BitVec.toNat_ofNat]
      simp

/-- Packing the parts of a double and taking them out again changes nothing. -/
theorem ofFloat?_pack {x : Binary64} (hx : x.Canonical) (hfinite : x.exponent ≤ 971) :
    ofFloat? (Float.ofModel (.pack x.unpacked)) = some x := by
  have hbits := toBits_pack hx hfinite
  obtain ⟨negative, significand, exponent⟩ := x
  obtain ⟨hlt, hle, hnormal⟩ := hx
  simp only at hlt hle hnormal hfinite hbits
  have hmod : significand % leastNormal < leastNormal := Nat.mod_lt _ (by decide)
  simp only [ofFloat?, hbits]
  rw [leastNormal_eq] at *
  have hsign : signBit = 2 ^ 63 := by decide
  rw [hsign]
  by_cases hsmall : significand < 2 ^ 52
  · have hexponent : exponent = -1074 := hnormal.resolve_left (by omega)
    subst hexponent
    rw [if_pos hsmall, Nat.mod_eq_of_lt hsmall]
    have hfield : ((if negative = true then 1 else 0) * 2 ^ 63 + 0 * 2 ^ 52 + significand) /
        2 ^ 52 % 2048 = 0 := by split <;> omega
    have hfraction : ((if negative = true then 1 else 0) * 2 ^ 63 + 0 * 2 ^ 52 + significand) %
        2 ^ 52 = significand := by split <;> omega
    rw [hfield, hfraction, if_neg (by decide), if_pos rfl]
    cases negative
    · simp
      omega
    · simp
  · rw [if_neg hsmall]
    generalize hfield : (exponent + 1075).toNat = k
    generalize hfraction : significand % 2 ^ 52 = f at hmod
    have hdiv : ((if negative = true then 1 else 0) * 2 ^ 63 + k * 2 ^ 52 + f) /
        2 ^ 52 % 2048 = k := by split <;> omega
    have hrest : ((if negative = true then 1 else 0) * 2 ^ 63 + k * 2 ^ 52 + f) %
        2 ^ 52 = f := by split <;> omega
    rw [hdiv, hrest, if_neg (by omega), if_neg (by omega)]
    have hvalue : 2 ^ 52 + f = significand := by omega
    have hexponent : (k : Int) - 1075 = exponent := by omega
    rw [hvalue, hexponent]
    cases negative <;> simp <;> omega

theorem pack_unpacked {r : Float} {x : Binary64} (h : ofFloat? r = some x) :
    Float.ofModel (.pack x.unpacked) = r := by
  obtain ⟨hx, hfinite⟩ := canonical_of_ofFloat? h
  exact ofFloat?_inj (ofFloat?_pack hx hfinite) h

theorem unpackSign_toNat (b : BitVec Format.binary64.numBits) :
    (unpackSign b).toNat = b.toNat / signBit := by
  have hlt : b.toNat < 2 ^ 64 := b.isLt
  simp [unpackSign, BitVec.extractLsb_toNat, Nat.shiftRight_eq_div_pow, signBit]
  omega

theorem ofBitVec_unpackSign (r : Float) :
    Sign.ofBitVec (@unpackSign .binary64 r.toModel.toBits.toBitVec) =
      if signBit ≤ r.toBits.toNat then .negative else .positive := by
  have hlt : r.toBits.toNat < 2 ^ 64 := r.toBits.toNat_lt
  have hzero : @unpackSign .binary64 r.toModel.toBits.toBitVec = 0#1 ↔
      ¬ signBit ≤ r.toBits.toNat := by
    rw [← BitVec.toNat_inj, unpackSign_toNat]
    change r.toBits.toNat / signBit = 0 ↔ _
    unfold signBit
    omega
  unfold Sign.ofBitVec
  by_cases hnegative : signBit ≤ r.toBits.toNat
  · rw [if_neg (by rw [hzero]; exact not_not_intro hnegative), if_pos hnegative]
  · rw [if_pos (hzero.mpr hnegative), if_neg hnegative]

theorem unpack_of_ofFloat? {r : Float} {x : Binary64} (h : ofFloat? r = some x) :
    r.toModel.unpack = x.unpacked := by
  obtain ⟨hfinite, hsign, hparts⟩ := ofFloat?_eq_some h
  have hsigns : Sign.ofBitVec (@unpackSign .binary64 r.toModel.toBits.toBitVec) = x.sign := by
    rw [ofBitVec_unpackSign, sign, hsign]
    simp only [decide_eq_true_eq]
  have hexponent : (@unpackExponent .binary64 r.toModel.toBits.toBitVec).toNat = field r :=
    unpackExponent_toNat _
  have hmantissa : (@unpackMantissa .binary64 r.toModel.toBits.toBitVec).toNat = fraction r :=
    unpackMantissa_toNat _
  have hfield : @unpackExponent .binary64 r.toModel.toBits.toBitVec = 0#_ ↔ field r = 0 := by
    rw [← BitVec.toNat_inj, hexponent]
    rfl
  simp only [Float.Model.unpack, UnpackedFloat.unpack, hsigns]
  rw [if_neg (by rw [unpackExponent_eq_ones]; exact hfinite)]
  rcases hparts with ⟨hzero, hsignificand, hleast⟩ | ⟨hzero, hsignificand, hleast⟩
  · rw [if_pos (hfield.mpr hzero)]
    unfold unpacked
    by_cases hfraction : fraction r = 0
    · rw [dif_pos ((unpackMantissa_eq_zero r).mpr hfraction), dif_pos (by omega)]
    · rw [dif_neg (by rw [unpackMantissa_eq_zero]; exact hfraction), dif_neg (by omega)]
      simp only [hexponent, hmantissa, hzero, hsignificand, hleast]
      rfl
  · rw [if_neg (by rw [hfield]; exact hzero)]
    unfold unpacked
    rw [dif_neg (by rw [hsignificand]; unfold leastNormal; omega)]
    have hvalue : (1#1 ++ @unpackMantissa .binary64 r.toModel.toBits.toBitVec).toNat =
        x.significand := by
      rw [BitVec.toNat_append, ← Nat.shiftLeft_add_eq_or_of_lt (BitVec.isLt _), hmantissa,
        hsignificand]
      rfl
    simp only [hvalue, hexponent, hleast]
    rfl

theorem neg_of_ofFloat? {r : Float} {x : Binary64} (h : ofFloat? r = some x) :
    -r = Float.ofModel (.pack { x with negative := !x.negative }.unpacked) := by
  change Float.ofModel (.pack (neg r.toModel.unpack)) = _
  rw [unpack_of_ofFloat? h]
  unfold unpacked
  by_cases hzero : x.significand = 0
  · simp only [hzero, dif_pos, neg, sign]
    cases x.negative <;> rfl
  · simp only [hzero, dif_neg, not_false_eq_true, neg, sign]
    cases x.negative <;> rfl

end Binary64
end PathQuery
