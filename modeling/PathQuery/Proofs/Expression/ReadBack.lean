import PathQuery.Proofs.Expression.Reread
import PathQuery.Proofs.Number.Shortest

/-!
# Doubles read back

The literal text of a finite double is read as that double: its shortest decimal is covered by it,
the layout of the text adds no more than zeros, and a sign before the text becomes the sign of the
double.
-/

namespace PathQuery

open Float.Model.UnpackedFloat

/-! ### Magnitudes -/

theorem numeralReal_decimalText {d : Decimal} {r : Float} {x : Binary64}
    (hr : Binary64.ofFloat? r = some x) (hpositive : x.negative = false)
    (hpos : 0 < x.significand) (hv : x.Covers d.value) :
    numeralReal (RealStyle.literal.decimalText d) = r := by
  obtain ⟨n, z, htext, _, hdecimal⟩ := exists_parts_decimalText d
  have hvalue : n.decimal.value = d.value := by
    rw [hdecimal]
    simp only [Decimal.value]
    rw [zpow_sub₀ (by norm_num), zpow_natCast]
    push_cast
    field_simp
  rw [← htext, NumberParts.numeralReal_text]
  rw [← hvalue] at hv
  exact Decimal.toFloat_of_covers hr hpositive hpos hv

namespace Binary64

theorem ofFloat?_reread {x : Binary64} (hx : x.Canonical) (hfinite : x.exponent ≤ 971) :
    ofFloat? x.reread = some { x with negative := false } := by
  let y : Binary64 := { x with negative := false }
  have hy : y.Canonical := ⟨hx.significand_lt, hx.le_exponent, hx.normal_or_least⟩
  by_cases hzero : x.significand = 0
  · have hleast : x.exponent = -1074 := hx.normal_or_least.resolve_left (by omega)
    have hshortest : x.shortest .up = ⟨0, 0⟩ := if_pos hzero
    rw [reread, hshortest, hzero, hleast]
    decide +kernel
  · have hpos : 0 < y.significand := Nat.pos_of_ne_zero hzero
    have hreread : x.reread = Float.ofModel (.pack y.unpacked) :=
      numeralReal_decimalText (ofFloat?_pack hy hfinite) rfl hpos
        (shortest_covers hy hfinite hpos .up)
    rw [hreread]
    exact ofFloat?_pack hy hfinite

theorem signed_reread {r : Float} {x : Binary64} (h : ofFloat? r = some x) :
    (if x.negative then -x.reread else x.reread) = r := by
  obtain ⟨hx, hfinite⟩ := canonical_of_ofFloat? h
  have hreread := ofFloat?_reread hx hfinite
  obtain ⟨negative, significand, exponent⟩ := x
  cases negative with
  | false => exact ofFloat?_inj hreread h
  | true =>
    simp only [if_true]
    rw [neg_of_ofFloat? hreread]
    exact pack_unpacked h

end Binary64

theorem realTerm_of_ofFloat? {r : Float} {x : Binary64} (h : Binary64.ofFloat? r = some x) :
    realTerm r = .literal (.real r) := by
  simp only [realTerm, h, Binary64.signed_reread h]

end PathQuery
