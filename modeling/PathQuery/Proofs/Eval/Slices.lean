import Mathlib
import PathQuery.Eval.Slice

/-!
# The positions of a slice

A slice takes the elements at the positions of an arithmetic progression, as long as these stand
before its bound. All of them are positions of the list, and the integers of 64 bits that a walk runs
over are the exact ones.
-/

namespace PathQuery
namespace Slice

/-! ### Exact bounds -/

/-- A bound of a list of `n` elements. A negative one counts from the end, and one that is not between
`low` and `high` is moved there. -/
def exactBound (n low high i : Int) : Int :=
  max low (min high (if i < 0 then n + i else i))

def firstOf (n step : Int) (first : Option Int) : Int :=
  if 0 < step then (first.map (exactBound n 0 n)).getD 0
  else (first.map (exactBound n (-1) (n - 1))).getD (n - 1)

def stopOf (n step : Int) (stop : Option Int) : Int :=
  if 0 < step then (stop.map (exactBound n 0 n)).getD n
  else (stop.map (exactBound n (-1) (n - 1))).getD (-1)

/-- Position `i` stands before `stop` in the direction of a step. -/
def Before (step stop i : Int) : Prop := if 0 < step then i < stop else stop < i

instance (step stop i : Int) : Decidable (Before step stop i) :=
  inferInstanceAs (Decidable (if 0 < step then i < stop else stop < i))

theorem neg_iff {i : Int64} : i < 0 ↔ i.toInt < 0 := Int64.lt_iff_toInt_lt

theorem pos_iff {i : Int64} : 0 < i ↔ 0 < i.toInt := Int64.lt_iff_toInt_lt

theorem toInt_add_of_neg {n i : Int64} (hn : 0 ≤ n.toInt) (hi : i < 0) :
    (n + i).toInt = n.toInt + i.toInt := by
  have hneg := neg_iff.mp hi
  have hlow := i.le_toInt
  have hhigh := n.toInt_lt
  rw [Int64.toInt_add]
  exact Int.bmod_eq_of_le (by omega) (by omega)

theorem toInt_bound {n low high : Int64} (hn : 0 ≤ n.toInt) (hle : low.toInt ≤ high.toInt)
    (i : Int64) :
    (bound n low high i).toInt = exactBound n.toInt low.toInt high.toInt i.toInt := by
  have hposition : (if i < 0 then n + i else i).toInt =
      if i.toInt < 0 then n.toInt + i.toInt else i.toInt := by
    by_cases hi : i < 0
    · rw [if_pos hi, if_pos (neg_iff.mp hi), toInt_add_of_neg hn hi]
    · rw [if_neg hi, if_neg fun h => hi (neg_iff.mpr h)]
  simp only [bound, exactBound, ← hposition]
  generalize (if i < 0 then n + i else i) = position
  split
  · next hlow =>
    have := Int64.lt_iff_toInt_lt.mp hlow
    omega
  · next hlow =>
    have hlow' : ¬ position.toInt < low.toInt := fun h => hlow (Int64.lt_iff_toInt_lt.mpr h)
    split
    · next hhigh =>
      have := Int64.lt_iff_toInt_lt.mp hhigh
      omega
    · next hhigh =>
      have hhigh' : ¬ high.toInt < position.toInt :=
        fun h => hhigh (Int64.lt_iff_toInt_lt.mpr h)
      omega

section

variable {n step : Int} (hn : 0 ≤ n) (first stop : Option Int)

theorem firstOf_nonneg (hpos : 0 < step) : 0 ≤ firstOf n step first := by
  rw [firstOf, if_pos hpos]
  cases first with
  | none => exact le_rfl
  | some i => exact le_max_left _ _

theorem stopOf_nonneg (hneg : ¬ 0 < step) : -1 ≤ stopOf n step stop := by
  rw [stopOf, if_neg hneg]
  cases stop with
  | none => exact le_rfl
  | some i => exact le_max_left _ _

include hn

theorem stopOf_le (hpos : 0 < step) : stopOf n step stop ≤ n := by
  rw [stopOf, if_pos hpos]
  cases stop with
  | none => exact le_rfl
  | some i => exact max_le hn (min_le_left _ _)

theorem firstOf_lt (hneg : ¬ 0 < step) : firstOf n step first < n := by
  rw [firstOf, if_neg hneg]
  cases first with
  | none => exact Int.sub_one_lt_of_le le_rfl
  | some i => exact Int.lt_of_le_sub_one (max_le (by omega) (min_le_left _ _))

/-- What a progression has before the bound of a slice are positions of the list. -/
theorem mem_range_of_before {k : Nat}
    (h : Before step (stopOf n step stop) (firstOf n step first + k * step)) :
    0 ≤ firstOf n step first + k * step ∧ firstOf n step first + k * step < n := by
  have hk : (0 : Int) ≤ k := Int.natCast_nonneg k
  unfold Before at h
  split at h
  · next hpos =>
    have hfirst := firstOf_nonneg (n := n) first hpos
    have hstop := stopOf_le hn stop hpos
    have hshift := Int.mul_nonneg hk hpos.le
    omega
  · next hneg =>
    have hfirst := firstOf_lt hn first hneg
    have hstop := stopOf_nonneg (n := n) stop hneg
    have hshift := Int.mul_nonpos_of_nonneg_of_nonpos hk (Int.not_lt.mp hneg)
    omega

end

/-! ### Walks -/

def progression (i step : Int) (count : Nat) : List Int :=
  (List.range count).map fun k : Nat => i + k * step

theorem progression_succ (i step : Int) (count : Nat) :
    progression i step (count + 1) = i :: progression (i + step) step count := by
  rw [progression, progression, List.range_succ_eq_map, List.map_cons, List.map_map]
  congr 1
  · simp
  · apply List.map_congr_left
    intro k _
    simp only [Function.comp_apply, Nat.cast_succ]
    ring

/-- Whatever a progression passes through before it stands before a bound stands there, too. -/
theorem Before.of_add {step stop i : Int} {k : Nat} (h : Before step stop (i + k * step)) :
    Before step stop i := by
  unfold Before at h ⊢
  split at h
  · next hpos =>
    have hge : 0 ≤ (k : Int) * step := Int.mul_nonneg (Int.natCast_nonneg k) hpos.le
    rw [if_pos hpos]
    omega
  · next hpos =>
    have hle : (k : Int) * step ≤ 0 :=
      Int.mul_nonpos_of_nonneg_of_nonpos (Int.natCast_nonneg k) (by omega)
    rw [if_neg hpos]
    omega

theorem ahead_iff {step i stop : Int64} :
    ahead step i stop = true ↔ Before step.toInt stop.toInt i.toInt := by
  unfold ahead Before
  by_cases hpos : 0 < step
  · rw [if_pos hpos, if_pos (pos_iff.mp hpos), decide_eq_true_eq, Int64.lt_iff_toInt_lt]
  · rw [if_neg hpos, if_neg fun h => hpos (pos_iff.mpr h), decide_eq_true_eq,
      Int64.lt_iff_toInt_lt]

/-- A position that does not fit 64 bits is beyond every bound. -/
theorem not_before_of_fitInt64?_none {step i stop : Int64}
    (h : fitInt64? (i.toInt + step.toInt) = none) :
    ¬ Before step.toInt stop.toInt (i.toInt + step.toInt) := by
  have hout : ¬ IsInt64 (i.toInt + step.toInt) := by
    intro hfits
    obtain ⟨next, hnext⟩ := exists_fitInt64?_iff.mpr hfits
    rw [h] at hnext
    cases hnext
  have hstop := isInt64_toInt stop
  have hi := isInt64_toInt i
  unfold IsInt64 at hout hstop hi
  unfold Before
  split
  · omega
  · omega

/-- A walk runs through the progression as long as it stands before the bound. -/
theorem walk_progression {step : Int64} (hstep : step ≠ 0) (i stop : Int64) :
    ∃ count : Nat,
      (walk step hstep i stop).map Int64.toInt = progression i.toInt step.toInt count ∧
      ∀ k : Nat, k < count ↔ Before step.toInt stop.toInt (i.toInt + k * step.toInt) := by
  have hshift : ∀ (i : Int) (k : Nat),
      i + ((k + 1 : Nat) : Int) * step.toInt = i + step.toInt + k * step.toInt := by
    intro i k
    push_cast
    ring
  induction i using walk.induct step hstep stop with
  | case1 i hahead next hnext ih =>
    obtain ⟨count, hwalk, hcount⟩ := ih
    rw [fitInt64?_eq_some_iff.mp hnext] at hwalk hcount
    refine ⟨count + 1, ?_, fun k => ?_⟩
    · rw [walk, dif_pos hahead]
      split
      · next next' hnext' =>
        rw [hnext] at hnext'
        cases hnext'
        rw [List.map_cons, hwalk, progression_succ]
      · next hnone => rw [hnext] at hnone; cases hnone
    · cases k with
      | zero => simpa using ahead_iff.mp hahead
      | succ k => rw [hshift, ← hcount k, Nat.succ_lt_succ_iff]
  | case2 i hahead hnext =>
    -- the next position does not fit, so it cannot stand before the bound
    refine ⟨1, ?_, fun k => ?_⟩
    · rw [walk, dif_pos hahead]
      split
      · next hsome => rw [hnext] at hsome; cases hsome
      · simp [progression]
    · cases k with
      | zero => simpa using ahead_iff.mp hahead
      | succ k =>
        rw [hshift]
        have hover := @not_before_of_fitInt64?_none step i stop hnext
        exact ⟨fun h => absurd h (by omega), fun h => absurd h.of_add hover⟩
  | case3 i hahead =>
    refine ⟨0, ?_, fun k => ?_⟩
    · rw [walk, dif_neg hahead]
      rfl
    · exact ⟨fun h => absurd h (Nat.not_lt_zero k), fun h => absurd (ahead_iff.mpr h.of_add) hahead⟩

theorem walk_progression_of {step i stop : Int64} {s first last : Int} (hstep : step ≠ 0)
    (hs : step.toInt = s) (hi : i.toInt = first) (hstop : stop.toInt = last) :
    ∃ count : Nat, (walk step hstep i stop).map Int64.toInt = progression first s count ∧
      ∀ k : Nat, k < count ↔ Before s last (first + k * s) := by
  subst hs hi hstop
  exact walk_progression hstep i stop

/-! ### Positions -/

theorem toInt_getD_map {f : Int64 → Int64} {g : Int → Int} (h : ∀ i, (f i).toInt = g i.toInt)
    (o : Option Int64) {i : Int64} {j : Int} (hij : i.toInt = j) :
    ((o.map f).getD i).toInt = ((o.map Int64.toInt).map g).getD j := by
  cases o with
  | none => exact hij
  | some k => exact h k

section

variable {length : Nat} (hlength : length < 2 ^ 63)
include hlength

theorem toInt_last (hpositive : 0 < length) : (Int64.ofNat length - 1).toInt = length - 1 := by
  have hn : (Int64.ofNat length).toInt = length := Int64.toInt_ofNat_of_lt hlength
  rw [Int64.toInt_sub_of_le _ _ (by decide), hn]
  · rfl
  · rw [Int64.le_iff_toInt_le, hn]
    change (1 : Int) ≤ length
    omega

theorem toInt_bound_forwards (i : Int64) :
    (bound (Int64.ofNat length) 0 (Int64.ofNat length) i).toInt =
      exactBound length 0 length i.toInt := by
  have hn : (Int64.ofNat length).toInt = length := Int64.toInt_ofNat_of_lt hlength
  have hnonneg : 0 ≤ (Int64.ofNat length).toInt := by omega
  have hlow : (0 : Int64).toInt ≤ (Int64.ofNat length).toInt := hnonneg
  rw [toInt_bound hnonneg hlow, hn]
  rfl

theorem toInt_bound_backwards (hpositive : 0 < length) (i : Int64) :
    (bound (Int64.ofNat length) (-1) (Int64.ofNat length - 1) i).toInt =
      exactBound length (-1) (length - 1) i.toInt := by
  have hn : (Int64.ofNat length).toInt = length := Int64.toInt_ofNat_of_lt hlength
  have hlast := toInt_last hlength hpositive
  have hle : (-1 : Int64).toInt ≤ (Int64.ofNat length - 1).toInt := by
    rw [hlast]
    change (-1 : Int) ≤ length - 1
    omega
  rw [toInt_bound (by omega) hle, hn, hlast]
  rfl

theorem positions_progression (first stop : Option Int64) {step : Option Int64}
    (hstep : step ≠ some 0) :
    let by_ := (step.map Int64.toInt).getD 1
    let begin_ := firstOf length by_ (first.map Int64.toInt)
    ∃ count : Nat, (positions length first stop step).map Int64.toInt =
        progression begin_ by_ count ∧
      ∀ k : Nat, k < count ↔
        Before by_ (stopOf length by_ (stop.map Int64.toInt)) (begin_ + k * by_) := by
  intro by_ begin_
  have hn : (Int64.ofNat length).toInt = length := Int64.toInt_ofNat_of_lt hlength
  have hby : (step.getD 1).toInt = by_ := by
    cases step with
    | none => rfl
    | some i => rfl
  have hnonzero : step.getD 1 ≠ 0 := by
    cases step with
    | none => decide
    | some i => exact fun h => hstep (congrArg some h)
  by_cases hempty : Int64.ofNat length = 0
  · -- the bounds of an empty list leave no room
    have hzero : (length : Int) = 0 := by
      rw [← hn, hempty]
      rfl
    refine ⟨0, ?_, fun k => ⟨fun h => absurd h (Nat.not_lt_zero k), fun h => ?_⟩⟩
    · rw [positions, dif_pos (.inr hempty)]
      rfl
    · have hrange := mem_range_of_before (Int.natCast_nonneg length) _ _ h
      omega
  · have hpositive : 0 < length := by
      apply Nat.pos_of_ne_zero
      rintro rfl
      exact hempty rfl
    rw [positions, dif_neg (not_or.mpr ⟨hnonzero, hempty⟩)]
    by_cases hpos : 0 < step.getD 1
    · have hpos' : 0 < by_ := hby ▸ pos_iff.mp hpos
      rw [if_pos hpos]
      apply walk_progression_of hnonzero hby
      · rw [toInt_getD_map (toInt_bound_forwards hlength) first rfl]
        exact (if_pos hpos').symm
      · rw [toInt_getD_map (toInt_bound_forwards hlength) stop hn, stopOf, if_pos hpos']
    · have hpos' : ¬ 0 < by_ := fun h => hpos (pos_iff.mpr (hby ▸ h))
      have hbound := toInt_bound_backwards hlength hpositive
      rw [if_neg hpos]
      apply walk_progression_of hnonzero hby
      · rw [toInt_getD_map hbound first (toInt_last hlength hpositive)]
        exact (if_neg hpos').symm
      · rw [toInt_getD_map hbound stop rfl, stopOf, if_neg hpos']
        rfl

end

/-! ### Elements -/

theorem toNat_toUInt64 {i : Int64} (hi : 0 ≤ i.toInt) : i.toUInt64.toNat = i.toInt.toNat := by
  rw [Int64.toNat_toUInt64_of_le (Int64.le_iff_toInt_le.mpr hi), Int64.toNat_toInt]

theorem map_filterMap_getElem? {α : Type} (xs : List α) {ps : List Int64}
    (hps : ∀ i ∈ ps, 0 ≤ i.toInt ∧ i.toInt < xs.length) :
    (ps.filterMap fun i => xs.toArray[i.toUInt64.toNat]?).map some =
      (ps.map Int64.toInt).map fun i => xs[i.toNat]? := by
  induction ps with
  | nil => rfl
  | cons i ps ih =>
    obtain ⟨hnonneg, hlt⟩ := hps i List.mem_cons_self
    have hbound : i.toInt.toNat < xs.length := by omega
    have hfound : xs[i.toInt.toNat]? = some xs[i.toInt.toNat] := List.getElem?_eq_getElem hbound
    have hrest := ih fun j hj => hps j (List.mem_cons_of_mem _ hj)
    rw [List.filterMap_cons, toNat_toUInt64 hnonneg, List.getElem?_toArray, hfound]
    simp only [List.map_cons, hfound, hrest]

end Slice

/-- A slice gives exactly the elements at `first`, `first + step`, `first + 2 * step` and so on that stand
before the bound in the direction of the step, in this order. The bounds are the exact ones, every
position is one of the list, and no integer on the way wraps. -/
theorem slice_progression {α : Type} (xs : List α) (hlength : xs.length < 2 ^ 63)
    (first stop : Option Int64) {step : Option Int64} (hstep : step ≠ some 0) :
    let n : Int := xs.length
    let by_ := (step.map Int64.toInt).getD 1
    let begin_ := Slice.firstOf n by_ (first.map Int64.toInt)
    let end_ := Slice.stopOf n by_ (stop.map Int64.toInt)
    ∃ count : Nat,
      (slice xs first stop step).map some =
        (Slice.progression begin_ by_ count).map (fun i => xs[i.toNat]?) ∧
      (∀ k : Nat, k < count ↔ Slice.Before by_ end_ (begin_ + k * by_)) ∧
      (∀ k < count, 0 ≤ begin_ + k * by_ ∧ begin_ + k * by_ < n) ∧
      (Slice.positions xs.length first stop step).map Int64.toInt =
        Slice.progression begin_ by_ count ∧
      ∀ i : Int64, i < 0 → (Int64.ofNat xs.length + i).toInt = n + i.toInt := by
  intro n by_ begin_ end_
  obtain ⟨count, hpositions, hcount⟩ := Slice.positions_progression hlength first stop hstep
  have hrange : ∀ k < count, 0 ≤ begin_ + k * by_ ∧ begin_ + k * by_ < n := fun k hk =>
    Slice.mem_range_of_before (Int.natCast_nonneg _) _ _ ((hcount k).mp hk)
  have hwords : ∀ i ∈ Slice.positions xs.length first stop step,
      0 ≤ i.toInt ∧ i.toInt < xs.length := by
    intro i hi
    have hmem : i.toInt ∈ Slice.progression begin_ by_ count :=
      hpositions ▸ List.mem_map_of_mem hi
    obtain ⟨k, hk, heq⟩ := List.mem_map.mp hmem
    rw [← heq]
    exact hrange k (List.mem_range.mp hk)
  refine ⟨count, ?_, hcount, hrange, hpositions, fun i hi => ?_⟩
  · rw [slice, Slice.map_filterMap_getElem? xs hwords, hpositions]
  · have hn := Int64.toInt_ofNat_of_lt hlength
    rw [Slice.toInt_add_of_neg (by omega) hi, hn]

/-- Backwards from beyond the end, by a step that leads beyond the beginning. -/
theorem slice_progression_backwards :
    [10, 11, 12, 13, 14].length < 2 ^ 63 ∧ some (-2 : Int64) ≠ some 0 ∧
      slice [10, 11, 12, 13, 14] (some Int64.maxValue) (some Int64.minValue) (some (-2)) =
        [14, 12, 10] := by
  have hlength : [10, 11, 12, 13, 14].length < 2 ^ 63 := by decide
  have hstep : some (-2 : Int64) ≠ some 0 := by decide
  obtain ⟨count, hslice, hcount, -⟩ :=
    slice_progression [10, 11, 12, 13, 14] hlength (some Int64.maxValue) (some Int64.minValue) hstep
  have hthree : count = 3 := by
    have hbefore : 2 < count := (hcount 2).mpr (by decide)
    have hafter : ¬ 3 < count := fun h => absurd ((hcount 3).mp h) (by decide)
    omega
  subst hthree
  refine ⟨hlength, hstep, ?_⟩
  exact List.map_injective_iff.mpr (Option.some_injective _) hslice

end PathQuery
