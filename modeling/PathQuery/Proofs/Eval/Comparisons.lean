import PathQuery.Eval.Comparison
import PathQuery.Proofs.Number.Order
import PathQuery.Tree.JsonBackend

/-!
# Comparisons

The loose order of items is turned round when the items are exchanged, whatever they are and under
every tolerance, so the comparison operators agree with each other. Items that are strictly equal are
equal in this order.
-/

namespace PathQuery

/-! ### Within a tolerance -/

theorem compareReals_eq (tolerance x y : Float) :
    compareReals tolerance x y =
      if (x - y).abs ≤ tolerance then some .eq else Binary64.order x y := by
  have hswap := Binary64.order_swap x y
  unfold compareReals
  simp only [Binary64.lt_iff_order, Binary64.beq_iff_order, hswap]
  cases Binary64.order x y with
  | none => rfl
  | some o => cases o <;> rfl

theorem compareReals_swap (tolerance x y : Float) :
    compareReals tolerance y x = (compareReals tolerance x y).map Ordering.swap := by
  rw [compareReals_eq, compareReals_eq, Binary64.abs_sub_comm y x]
  split
  · rfl
  · exact Binary64.order_swap x y

/-- Equal doubles compare as equal under every tolerance, also one that no difference is within. -/
theorem compareReals_of_beq {x y : Float} (h : (x == y) = true) (tolerance : Float) :
    compareReals tolerance x y = some .eq := by
  rw [compareReals_eq, Binary64.beq_iff_order.mp h, ite_self]

/-! ### Integers, truth values and texts -/

theorem compareInts_swap (a b : Int64) : compareInts b a = (compareInts a b).swap := by
  unfold compareInts
  rcases Int.lt_trichotomy a.toInt b.toInt with h | h | h
  · rw [if_pos h, if_neg (by omega), if_neg (by omega)]
    rfl
  · rw [h, if_neg (Int.lt_irrefl _), if_pos rfl]
    rfl
  · rw [if_pos h, if_neg (by omega), if_neg (by omega)]
    rfl

theorem compareInts_eq_lt_iff {a b : Int64} : compareInts a b = .lt ↔ a.toInt < b.toInt := by
  unfold compareInts
  split
  · next h => exact iff_of_true rfl h
  · next h =>
    refine iff_of_false ?_ h
    split <;> decide

theorem compareInts_eq_gt_iff {a b : Int64} : compareInts a b = .gt ↔ b.toInt < a.toInt := by
  rw [compareInts_swap b a, Ordering.swap_eq_gt, compareInts_eq_lt_iff]

theorem compareBools_swap (a b : Bool) : compareBools b a = (compareBools a b).swap := by
  cases a <;> cases b <;> rfl

theorem compareTexts_swap (a b : String) : compareTexts b a = (compareTexts a b).swap := by
  unfold compareTexts
  rcases lt_trichotomy a b with h | h | h
  · rw [if_pos h, if_neg h.asymm, if_neg h.ne']
    rfl
  · rw [h, if_neg (lt_irrefl b), if_pos rfl]
    rfl
  · rw [if_pos h, if_neg h.asymm, if_neg h.ne']
    rfl

/-! ### Scalars -/

namespace Scalar

def compareCoerced (tolerance : Float) (v w : Scalar) : Option Ordering :=
  match v.number?, w.number? with
  | some x, some y => compareReals tolerance x y
  | _, _ =>
    if v.isBool || w.isBool then some (compareBools v.truth w.truth)
    else some (compareTexts (v.text?.getD "") (w.text?.getD ""))

theorem compareCoerced_swap (tolerance : Float) (v w : Scalar) :
    compareCoerced tolerance w v = (compareCoerced tolerance v w).map Ordering.swap := by
  unfold compareCoerced
  have hrest :
      (if w.isBool || v.isBool then some (compareBools w.truth v.truth)
        else some (compareTexts (w.text?.getD "") (v.text?.getD ""))) =
      (if v.isBool || w.isBool then some (compareBools v.truth w.truth)
        else some (compareTexts (v.text?.getD "") (w.text?.getD ""))).map Ordering.swap := by
    rw [Bool.or_comm, compareBools_swap, compareTexts_swap]
    split <;> rfl
  cases v.number? with
  | none => cases w.number? <;> exact hrest
  | some x => cases w.number? with
    | none => exact hrest
    | some y => exact compareReals_swap tolerance x y

theorem compare_eq_compareCoerced {v w : Scalar} (hv : v ≠ null) (hw : w ≠ null)
    (hints : ∀ a b, v = int a → w ≠ int b) (tolerance : Float) :
    compare tolerance v w = compareCoerced tolerance v w := by
  unfold compare
  split
  · exact absurd rfl hv
  · exact absurd rfl hv
  · exact absurd rfl hw
  · exact absurd rfl (hints _ _ rfl)
  · rfl

theorem compare_swap (tolerance : Float) (v w : Scalar) :
    compare tolerance w v = (compare tolerance v w).map Ordering.swap := by
  by_cases hv : v = null
  · subst hv
    cases w <;> rfl
  by_cases hw : w = null
  · subst hw
    cases v <;> rfl
  by_cases hints : ∃ a b, v = int a ∧ w = int b
  · obtain ⟨a, b, rfl, rfl⟩ := hints
    exact congrArg some (compareInts_swap a b)
  · rw [compare_eq_compareCoerced hv hw fun a b ha hb => hints ⟨a, b, ha, hb⟩,
      compare_eq_compareCoerced hw hv fun b a hb ha => hints ⟨a, b, ha, hb⟩]
    exact compareCoerced_swap tolerance v w

/-- The number that a text spells is finite, and so it is equal to itself. -/
theorem beq_self_of_number? {s : String} {x : Float} (h : (str s).number? = some x) :
    (x == x) = true :=
  Binary64.beq_self_of_isFinite (Option.filter_eq_some_iff.mp h).2

theorem compare_str_self (tolerance : Float) (s : String) :
    compare tolerance (str s) (str s) = some .eq := by
  cases hx : (str s).number? with
  | some x =>
    simp only [compare, hx]
    exact compareReals_of_beq (beq_self_of_number? hx) tolerance
  | none => simp [compare, hx, isBool, compareTexts]

theorem compare_of_same {v w : Scalar} (h : v.same w = true) (tolerance : Float) :
    compare tolerance v w = some .eq := by
  cases v with
  | null => cases w with
    | null => rfl
    | _ => cases h
  | bool a => cases w with
    | bool b =>
      obtain rfl := eq_of_beq h
      cases a <;> rfl
    | _ => cases h
  | int a => cases w with
    | int b =>
      obtain rfl := eq_of_beq h
      simp [compare, compareInts]
    | real y => exact compareReals_of_beq h tolerance
    | _ => cases h
  | real x => cases w with
    | int b =>
      rw [same, Binary64.beq_swap] at h
      exact compareReals_of_beq h tolerance
    | real y => exact compareReals_of_beq h tolerance
    | _ => cases h
  | str s => cases w with
    | str t =>
      obtain rfl := eq_of_beq h
      exact compare_str_self tolerance s
    | _ => cases h

end Scalar

/-! ### Items -/

namespace Backend

theorem compare_swap (b : Backend) (tolerance : Float) (x y : Item) :
    b.compare tolerance y x = (b.compare tolerance x y).map Ordering.swap := by
  unfold compare
  cases b.reduce x with
  | node p => cases b.reduce y with
    | node q =>
      simp only [eq_comm (a := q)]
      split <;> rfl
    | scalar w => rfl
  | scalar v => cases b.reduce y with
    | node q => rfl
    | scalar w => exact Scalar.compare_swap tolerance v w

theorem compare_of_same {b : Backend} {x y : Item} (h : b.same x y = true) (tolerance : Float) :
    b.compare tolerance x y = some .eq := by
  unfold same at h
  unfold compare
  cases hx : b.reduce x with
  | node p => cases hy : b.reduce y with
    | node q =>
      simp only [hx, hy, beq_iff_eq] at h
      exact if_pos h
    | scalar w => simp [hx, hy] at h
  | scalar v => cases hy : b.reduce y with
    | node q => simp [hx, hy] at h
    | scalar w =>
      simp only [hx, hy] at h
      exact Scalar.compare_of_same h tolerance

/-- The operators agree with each other: exchanging the items turns the order round, so each operator
says of two items what its mirror image says of them exchanged, `!=` is the opposite of `==`, `<=` is
`<` or `==`, and at most one of `<`, `==` and `>` holds. -/
theorem compare_coherent (b : Backend) (tolerance : Float) (x y : Item) :
    b.compare tolerance y x = (b.compare tolerance x y).map Ordering.swap ∧
    b.holds tolerance .less x y = b.holds tolerance .greater y x ∧
    b.holds tolerance .lessEqual x y = b.holds tolerance .greaterEqual y x ∧
    b.holds tolerance .equal x y = b.holds tolerance .equal y x ∧
    b.holds tolerance .notEqual x y = b.holds tolerance .notEqual y x ∧
    b.holds tolerance .notEqual x y = !b.holds tolerance .equal x y ∧
    b.holds tolerance .lessEqual x y =
      (b.holds tolerance .less x y || b.holds tolerance .equal x y) ∧
    ¬ (b.holds tolerance .less x y = true ∧ b.holds tolerance .equal x y = true) ∧
    ¬ (b.holds tolerance .less x y = true ∧ b.holds tolerance .greater x y = true) ∧
    ¬ (b.holds tolerance .equal x y = true ∧ b.holds tolerance .greater x y = true) := by
  have hswap := compare_swap b tolerance x y
  refine ⟨hswap, ?_⟩
  simp only [holds, hswap]
  cases b.compare tolerance x y with
  | none => decide
  | some o => cases o <;> decide

/-- Strictly equal items are equal in the loose order under every tolerance, also a negative one. So
`===` implies `==`, `<=` and `>=`, and `!=` implies `!==`. -/
theorem equal_of_same (b : Backend) (tolerance : Float) (x y : Item) :
    (b.holds tolerance .same x y = true →
      b.compare tolerance x y = some .eq ∧ b.holds tolerance .equal x y = true ∧
      b.holds tolerance .lessEqual x y = true ∧ b.holds tolerance .greaterEqual x y = true) ∧
    (b.holds tolerance .notEqual x y = true → b.holds tolerance .notSame x y = true) := by
  have hequal : b.same x y = true → b.compare tolerance x y = some .eq :=
    fun h => compare_of_same h tolerance
  constructor
  · intro hsame
    refine ⟨hequal hsame, ?_⟩
    simp only [holds, hequal hsame]
    decide
  · intro hne
    cases hsame : b.same x y with
    | false => simp only [holds, hsame, Bool.not_false]
    | true =>
      simp only [holds, hequal hsame] at hne
      cases hne

/-- An integer and the real that it is rounded to are equal also under a tolerance that no difference is
within, and different texts are strictly different. -/
theorem equal_of_same_rounded :
    let b : Backend := Json.backend ⟨.null, trivial⟩
    let x : Item := .scalar (.int 9007199254740993)
    let y : Item := .scalar (.real 9007199254740992.0)
    let s : Item := .scalar (.str "1e3")
    let t : Item := .scalar (.str "1e4")
    b.holds (-1.0) .same x y = true ∧ b.compare (-1.0) x y = some .eq ∧
      b.holds 0.0 .notEqual s t = true ∧ b.holds 0.0 .notSame s t = true := by
  intro b x y s t
  have hsame : b.holds (-1.0) .same x y = true := by decide +kernel
  have hne : b.holds 0.0 .notEqual s t = true := by decide +kernel
  exact ⟨hsame, ((equal_of_same b (-1.0) x y).1 hsame).1, hne, (equal_of_same b 0.0 s t).2 hne⟩

end Backend
end PathQuery
