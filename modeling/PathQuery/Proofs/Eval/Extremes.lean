import PathQuery.Eval.Engine
import PathQuery.Proofs.Eval.Comparisons
import PathQuery.Proofs.Eval.Sums
import PathQuery.Proofs.Number.Integers

/-!
# The least and the greatest integer

`min` and `max` compare integers as doubles and keep the first one that no later one is better than.
The comparison operators order integers exactly. Both agree unless a later integer that has the same
double is beyond the one that is kept, and such integers have more than 53 bits.
-/

namespace PathQuery

open Binary64 (nearest)

/-- The end of the order that is asked for. -/
inductive Extremum where
  | least
  | greatest
  deriving DecidableEq, Repr

namespace Extremum

def function : Extremum → Function
  | least => Builtin.minimum
  | greatest => Builtin.maximum

def operator : Extremum → BinaryOp
  | least => .less
  | greatest => .greater

def better : Extremum → Float → Float → Bool
  | least => fun x y => x < y
  | greatest => fun x y => y < x

def Beyond : Extremum → Int → Int → Prop
  | least, m, n => m < n
  | greatest, m, n => n < m

instance (side : Extremum) (m n : Int) : Decidable (side.Beyond m n) :=
  match side with
  | least => inferInstanceAs (Decidable (m < n))
  | greatest => inferInstanceAs (Decidable (n < m))

theorem beyond_irrefl (side : Extremum) (n : Int) : ¬ side.Beyond n n := by
  cases side <;> exact Int.lt_irrefl n

/-- A number, turned so that what is better is greater. -/
def toward : Extremum → ℚ → ℚ
  | least, q => -q
  | greatest, q => q

section

variable {i j : Int} (hi : IsInt64 i) (hj : IsInt64 j) (side : Extremum)
include hi hj

theorem better_iff :
    side.better (Float.ofInt i) (Float.ofInt j) = true ↔
      side.toward (nearest j) < side.toward (nearest i) := by
  cases side with
  | least => simp only [better, toward, decide_eq_true_eq, Binary64.ofInt_lt_iff hi hj, neg_lt_neg_iff]
  | greatest => simp only [better, toward, decide_eq_true_eq, Binary64.ofInt_lt_iff hj hi]

theorem better_eq_false_iff :
    side.better (Float.ofInt i) (Float.ofInt j) = false ↔
      side.toward (nearest i) ≤ side.toward (nearest j) := by
  rw [← not_lt, ← better_iff hi hj, Bool.not_eq_true]

theorem same_double_iff :
    (Float.ofInt i == Float.ofInt j) = true ↔
      side.toward (nearest i) = side.toward (nearest j) := by
  rw [Binary64.ofInt_beq_iff hi hj]
  cases side with
  | least => exact neg_inj.symm
  | greatest => rfl

theorem toward_le_of_beyond (h : side.Beyond i j) :
    side.toward (nearest j) ≤ side.toward (nearest i) := by
  cases side with
  | least => exact neg_le_neg (Binary64.nearest_mono hi hj (Int.le_of_lt h))
  | greatest => exact Binary64.nearest_mono hj hi (Int.le_of_lt h)

/-- An integer beyond another has the same double only if 53 bits do not hold it or the other. -/
theorem magnitude_of_same_double (h : side.Beyond i j)
    (hsame : (Float.ofInt i == Float.ofInt j) = true) :
    2 ^ 53 ≤ min i j ∨ max i j ≤ -2 ^ 53 := by
  rw [Binary64.ofInt_beq_iff hi hj] at hsame
  by_contra hsmall
  cases side with
  | least =>
    have hlt : i < j := h
    exact (Binary64.nearest_lt hi hj hlt (by omega) (by omega)).ne hsame
  | greatest =>
    have hlt : j < i := h
    exact (Binary64.nearest_lt hj hi hlt (by omega) (by omega)).ne' hsame

end

end Extremum

namespace Backend

variable {b : Backend}

def doubleOf (b : Backend) (x : Item) : Float := Float.ofInt (b.integerOf x)

theorem integerOf_eq {x : Item} {n : Int64} (hx : b.reduce x = .scalar (.int n)) :
    b.integerOf x = n.toInt := by
  rw [integerOf, hx]

theorem IsInteger.isInt64 {x : Item} (hx : b.IsInteger x) : IsInt64 (b.integerOf x) := by
  obtain ⟨n, hn⟩ := hx
  rw [integerOf_eq hn]
  exact isInt64_toInt n

theorem holds_operator_iff {x y : Item} (hx : b.IsInteger x) (hy : b.IsInteger y)
    (side : Extremum) (tolerance : Float) :
    b.holds tolerance side.operator x y = true ↔ side.Beyond (b.integerOf x) (b.integerOf y) := by
  obtain ⟨m, hm⟩ := hx
  obtain ⟨n, hn⟩ := hy
  have hcompare : b.compare tolerance x y = some (compareInts m n) := by
    simp only [compare, hm, hn, Scalar.compare]
  rw [integerOf_eq hm, integerOf_eq hn]
  cases side with
  | least =>
    simp only [holds, Extremum.operator, Extremum.Beyond, hcompare, beq_iff_eq, Option.some.injEq,
      compareInts_eq_lt_iff]
  | greatest =>
    simp only [holds, Extremum.operator, Extremum.Beyond, hcompare, beq_iff_eq, Option.some.injEq,
      compareInts_eq_gt_iff]

end Backend

namespace Builtin

variable {b : Backend}

/-! ### The scan -/

def keepBetter (better : Float → Float → Bool) (b : Backend) (best : Option (Float × Scalar))
    (item : Item) : Option (Float × Scalar) :=
  match b.number? item with
  | none => best
  | some r =>
    if best.all fun held => better r held.1 then
      match b.reduce item with
      | .scalar (.int i) => some (r, .int i)
      | _ => some (r, .real r)
    else best

theorem extreme_eq_foldl (better : Float → Float → Bool) (b : Backend) (items : List Item) :
    extreme better b items = (items.foldl (keepBetter better b) none).map Prod.snd := rfl

theorem keepBetter_of_integer (better : Float → Float → Bool) {x : Item} {n : Int64}
    (hx : b.reduce x = .scalar (.int n)) (best : Option (Float × Scalar)) :
    keepBetter better b best x =
      if best.all fun held => better (b.doubleOf x) held.1 then some (b.doubleOf x, .int n)
      else best := by
  have hnumber : b.number? x = some (b.doubleOf x) := by
    rw [Backend.number?, hx, Backend.doubleOf, Backend.integerOf_eq hx]
    rfl
  rw [keepBetter, hnumber]
  simp only [hx]

/-- No item before the kept one is as good, and none after it is better. -/
structure FirstBest (side : Extremum) (b : Backend) (first : List Item) (best : Item)
    (rest : List Item) : Prop where
  before : ∀ x ∈ first, side.better (b.doubleOf best) (b.doubleOf x) = true
  after : ∀ x ∈ rest, side.better (b.doubleOf x) (b.doubleOf best) = false

section

variable {side : Extremum} {first rest : List Item} {best x : Item}

theorem FirstBest.keep (h : FirstBest side b first best rest)
    (hx : side.better (b.doubleOf x) (b.doubleOf best) = false) :
    FirstBest side b first best (rest ++ [x]) :=
  ⟨h.before, List.forall_mem_append.mpr ⟨h.after, List.forall_mem_singleton.mpr hx⟩⟩

theorem FirstBest.replace (h : FirstBest side b first best rest)
    (hitems : ∀ y ∈ first ++ best :: rest, b.IsInteger y) (hint : b.IsInteger x)
    (hx : side.better (b.doubleOf x) (b.doubleOf best) = true) :
    FirstBest side b (first ++ best :: rest) x [] := by
  have hbest := (hitems best (by simp)).isInt64
  rw [Backend.doubleOf, Backend.doubleOf, side.better_iff hint.isInt64 hbest] at hx
  refine ⟨fun y hy => ?_, List.forall_mem_nil _⟩
  have hyint := (hitems y hy).isInt64
  rw [Backend.doubleOf, Backend.doubleOf, side.better_iff hint.isInt64 hyint]
  refine lt_of_le_of_lt ?_ hx
  rcases List.mem_append.mp hy with hmem | hmem
  · exact ((side.better_iff hbest hyint).mp (h.before y hmem)).le
  · rcases List.mem_cons.mp hmem with rfl | hmem
    · exact le_rfl
    · exact (side.better_eq_false_iff hyint hbest).mp (h.after y hmem)

/-- An integer beyond the kept one comes after it and has the same double. -/
theorem FirstBest.of_beyond (h : FirstBest side b first best rest)
    (hitems : ∀ y ∈ first ++ best :: rest, b.IsInteger y) (hx : x ∈ first ++ best :: rest)
    (hbeyond : side.Beyond (b.integerOf x) (b.integerOf best)) :
    x ∈ rest ∧ (b.doubleOf x == b.doubleOf best) = true := by
  have hint := (hitems x hx).isInt64
  have hbest := (hitems best (by simp)).isInt64
  have hle := side.toward_le_of_beyond hint hbest hbeyond
  rcases List.mem_append.mp hx with hmem | hmem
  · exact absurd ((side.better_iff hbest hint).mp (h.before x hmem)) (not_lt.mpr hle)
  · rcases List.mem_cons.mp hmem with rfl | hmem
    · exact absurd hbeyond (side.beyond_irrefl _)
    · have hge := (side.better_eq_false_iff hint hbest).mp (h.after x hmem)
      exact ⟨hmem, (side.same_double_iff hint hbest).mpr (le_antisymm hge hle)⟩

/-- Only the integers after the kept one that have the same double matter. -/
theorem FirstBest.none_beyond_iff (h : FirstBest side b first best rest)
    (hitems : ∀ y ∈ first ++ best :: rest, b.IsInteger y) :
    (∀ x ∈ first ++ best :: rest, ¬ side.Beyond (b.integerOf x) (b.integerOf best)) ↔
      ∀ x ∈ rest, (b.doubleOf x == b.doubleOf best) = true →
        ¬ side.Beyond (b.integerOf x) (b.integerOf best) := by
  constructor
  · intro hnone x hx _
    exact hnone x (List.mem_append_right _ (List.mem_cons_of_mem _ hx))
  · intro hshared x hx hbeyond
    obtain ⟨hmem, hsame⟩ := h.of_beyond hitems hx hbeyond
    exact hshared x hmem hsame hbeyond

end

/-- The scan of integers ends with the first of those with the best double. -/
theorem foldl_keepBetter (side : Extremum) {items : List Item} (hne : items ≠ [])
    (hitems : ∀ x ∈ items, b.IsInteger x) :
    ∃ first best rest, ∃ i : Int64, items = first ++ best :: rest ∧
      FirstBest side b first best rest ∧ b.reduce best = .scalar (.int i) ∧
      items.foldl (keepBetter side.better b) none = some (b.doubleOf best, .int i) := by
  -- from the end: the last item either replaces the best one or joins those after it
  induction items using List.reverseRecOn with
  | nil => exact absurd rfl hne
  | append_singleton items x ih =>
    obtain ⟨hinit, hlast⟩ := List.forall_mem_append.mp hitems
    obtain ⟨n, hn⟩ := List.forall_mem_singleton.mp hlast
    rw [List.foldl_append, List.foldl_cons, List.foldl_nil, keepBetter_of_integer _ hn]
    by_cases hempty : items = []
    · subst hempty
      exact ⟨[], x, [], n, rfl, ⟨List.forall_mem_nil _, List.forall_mem_nil _⟩, hn, rfl⟩
    · obtain ⟨first, best, rest, i, rfl, hbest, hi, hfold⟩ := ih hempty hinit
      rw [hfold]
      cases hx : side.better (b.doubleOf x) (b.doubleOf best) with
      | true =>
        refine ⟨first ++ best :: rest, x, [], n, rfl, hbest.replace hinit ⟨n, hn⟩ hx, hn, ?_⟩
        simp only [Option.all_some, hx, if_true]
      | false =>
        refine ⟨first, best, rest ++ [x], i, by simp, hbest.keep hx, hi, ?_⟩
        simp only [Option.all_some, hx, Bool.false_eq_true, if_false]

/-! ### The extremum -/

theorem runFrom_extremum (side : Extremum) {env : Env} {name : String}
    {args : List Argument} {context input items : List Item} {c c' : Context}
    (h : (gather (Argument.against args context) input).runFrom c = (.ok items, c')) :
    (side.function.apply env name args context input).runFrom c =
      (.ok ((extreme side.better env.backend items).map Item.scalar).toList, c') := by
  cases side with
  | least => exact EvalM.runFrom_bind_ok h _
  | greatest => exact EvalM.runFrom_bind_ok h _

/-- Of integers, `min` and `max` return the first one with the best double, whatever the call that the
list comes from. No element compares beyond it just if no later one with the same double does, and one
that does is, like the returned one, at least two to the power of 53 or at most its opposite. -/
theorem extreme_of_integers (side : Extremum) {env : Env} {items : List Item} (hne : items ≠ [])
    (hitems : ∀ x ∈ items, env.backend.IsInteger x) :
    ∃ first best rest, ∃ i : Int64, items = first ++ best :: rest ∧
      env.backend.reduce best = .scalar (.int i) ∧
      (∀ name args context input c c',
        (gather (Argument.against args context) input).runFrom c = (.ok items, c') →
          (side.function.apply env name args context input).runFrom c =
            (.ok [.scalar (.int i)], c')) ∧
      (∀ x ∈ first, side.better (realOfInt i) (env.backend.doubleOf x) = true) ∧
      (∀ x ∈ rest, side.better (env.backend.doubleOf x) (realOfInt i) = false) ∧
      (∀ tolerance,
        (∀ x ∈ items, env.backend.holds tolerance side.operator x (.scalar (.int i)) = false) ↔
          ∀ x ∈ rest, (env.backend.doubleOf x == realOfInt i) = true →
            ¬ side.Beyond (env.backend.integerOf x) i.toInt) ∧
      (∀ tolerance, ∀ x ∈ items,
        env.backend.holds tolerance side.operator x (.scalar (.int i)) = true →
          2 ^ 53 ≤ min (env.backend.integerOf x) i.toInt ∨
            max (env.backend.integerOf x) i.toInt ≤ -2 ^ 53) := by
  obtain ⟨first, best, rest, i, rfl, hbest, hi, hfold⟩ := foldl_keepBetter side hne hitems
  have hint : i.toInt = env.backend.integerOf best := (Backend.integerOf_eq hi).symm
  have hdouble : realOfInt i = env.backend.doubleOf best := congrArg Float.ofInt hint
  have hholds : ∀ tolerance, ∀ x ∈ first ++ best :: rest,
      (env.backend.holds tolerance side.operator x (.scalar (.int i)) = true ↔
        side.Beyond (env.backend.integerOf x) (env.backend.integerOf best)) :=
    fun tolerance x hx => hint ▸ Backend.holds_operator_iff (hitems x hx) ⟨i, rfl⟩ side tolerance
  refine ⟨first, best, rest, i, rfl, hi, ?_⟩
  rw [hint, hdouble]
  refine ⟨?_, hbest.before, hbest.after, ?_, ?_⟩
  · intro name args context input c c' hrun
    rw [runFrom_extremum side hrun, extreme_eq_foldl, hfold]
    rfl
  · intro tolerance
    rw [← hbest.none_beyond_iff hitems]
    refine forall₂_congr fun x hx => ?_
    rw [← Bool.not_eq_true, hholds tolerance x hx]
  · intro tolerance x hx hyes
    have hbeyond := (hholds tolerance x hx).mp hyes
    exact side.magnitude_of_same_double (hitems x hx).isInt64 (hitems best (by simp)).isInt64 hbeyond
      (hbest.of_beyond hitems hx hbeyond).2

/-- Of two integers that share a double the first is returned, though the second compares as greater. -/
theorem extreme_of_integers_shared :
    let env : Env := ⟨Json.backend ⟨.null, trivial⟩, .default, false⟩
    let even : Item := .scalar (.int 9007199254740992)
    let odd : Item := .scalar (.int 9007199254740993)
    let args : List Argument := evalArgs env .builtins
      [.literal (.int 9007199254740992), .literal (.int 9007199254740993)]
    (gather (Argument.against args []) []).runFrom .initial = (.ok [even, odd], .initial) ∧
      (∀ x ∈ [even, odd], env.backend.IsInteger x) ∧
      (maximum.apply env "max" args [] []).runFrom .initial = (.ok [even], .initial) ∧
      env.backend.holds 0.0 .greater odd even = true ∧
      2 ^ 53 ≤ min (env.backend.integerOf odd) (env.backend.integerOf even) := by
  intro env even odd args
  have hitems : ∀ x ∈ [even, odd], env.backend.IsInteger x := by
    simp only [List.forall_mem_cons]
    exact ⟨⟨_, rfl⟩, ⟨_, rfl⟩, List.forall_mem_nil _⟩
  have hargs : (gather (Argument.against args []) []).runFrom .initial =
      (.ok [even, odd], .initial) := rfl
  have hgreater : env.backend.holds 0.0 .greater odd even = true := by decide +kernel
  obtain ⟨-, -, -, i, -, -, hcall, -, -, -, hlarge⟩ :=
    extreme_of_integers .greatest (List.cons_ne_nil _ _) hitems
  have hmax := hcall "max" _ _ _ _ _ hargs
  obtain rfl : i = 9007199254740992 := by
    have hfound : extreme Extremum.greatest.better env.backend [even, odd] =
        some (.int 9007199254740992) := by decide +kernel
    have hresult := hmax.symm.trans (runFrom_extremum .greatest hargs)
    rw [hfound] at hresult
    simpa using hresult
  refine ⟨hargs, hitems, hmax, hgreater, ?_⟩
  exact (hlarge 0.0 odd (by simp) hgreater).resolve_right (by decide +kernel)

end Builtin
end PathQuery
