import Mathlib
import PathQuery.Eval.Builtin
import PathQuery.Eval.Engine
import PathQuery.Proofs.Eval.Running
import PathQuery.Tree.JsonBackend

/-!
# Lists as sets

Union and intersection keep items one by one and drop each that is strictly equal to one kept before.
Strict equality is no equivalence: NaN is not equal to itself, and two integers can be equal to one real.
So what is kept depends on the order, but no two kept items are equal, and each wanted item is kept or
equal to a kept one.
-/

namespace PathQuery
namespace Builtin

variable {b : Backend} {items kept : List Item}

/-- No item is strictly equal to an earlier one. -/
def Distinct (b : Backend) (items : List Item) : Prop :=
  items.Pairwise fun earlier later => b.same earlier later = false

/-- The list `kept` is a part of `items`, in their order, of wanted items no two of which are strictly
equal, and each wanted item is in it or strictly equal to one that is. -/
structure Represents (b : Backend) (wanted : Item → Prop) (items kept : List Item) : Prop where
  sublist : kept.Sublist items
  all_wanted : ∀ x ∈ kept, wanted x
  distinct : Distinct b kept
  covers : ∀ x ∈ items, wanted x → x ∈ kept ∨ ∃ y ∈ kept, b.same y x = true

/-! ### One item after the other -/

/-- Keeps an item unless it is strictly equal to one kept before. -/
def adjoin (b : Backend) (kept : List Item) (item : Item) : List Item :=
  if member b kept item then kept else kept ++ [item]

theorem member_iff {x : Item} : member b kept x = true ↔ ∃ y ∈ kept, b.same y x = true :=
  List.any_eq_true

theorem member_eq_false_iff {x : Item} :
    member b kept x = false ↔ ∀ y ∈ kept, b.same y x = false := by
  simp [member]

theorem distinct_concat_iff {x : Item} :
    Distinct b (kept ++ [x]) ↔ Distinct b kept ∧ member b kept x = false := by
  simp [Distinct, List.pairwise_append, member_eq_false_iff]

theorem subset_adjoin (kept : List Item) (x : Item) : kept ⊆ adjoin b kept x := by
  unfold adjoin
  split
  · exact List.Subset.refl _
  · exact List.subset_append_left ..

theorem adjoin_sublist (kept : List Item) (x : Item) : (adjoin b kept x).Sublist (kept ++ [x]) := by
  unfold adjoin
  split
  · exact List.sublist_append_left ..
  · exact List.Sublist.refl _

theorem distinct_adjoin (h : Distinct b kept) (x : Item) : Distinct b (adjoin b kept x) := by
  unfold adjoin
  split
  · exact h
  · next hx => exact distinct_concat_iff.mpr ⟨h, Bool.eq_false_iff.mpr hx⟩

theorem covered_adjoin (kept : List Item) (x : Item) :
    x ∈ adjoin b kept x ∨ ∃ y ∈ adjoin b kept x, b.same y x = true := by
  unfold adjoin
  split
  · next hx => exact .inr (member_iff.mp hx)
  · exact .inl (List.mem_append_right _ List.mem_cons_self)

/-! ### All items -/

theorem subset_foldl_adjoin (items kept : List Item) : kept ⊆ items.foldl (adjoin b) kept := by
  induction items generalizing kept with
  | nil => exact List.Subset.refl _
  | cons x items ih => exact List.Subset.trans (subset_adjoin kept x) (ih _)

theorem foldl_adjoin_sublist (items kept : List Item) :
    (items.foldl (adjoin b) kept).Sublist (kept ++ items) := by
  induction items generalizing kept with
  | nil => simp
  | cons x items ih =>
    have hstep := (adjoin_sublist (b := b) kept x).append_right items
    rw [List.append_assoc] at hstep
    exact (ih _).trans hstep

theorem distinct_foldl_adjoin (h : Distinct b kept) (items : List Item) :
    Distinct b (items.foldl (adjoin b) kept) := by
  induction items generalizing kept with
  | nil => exact h
  | cons x items ih => exact ih (distinct_adjoin h x)

theorem covered_foldl_adjoin (kept : List Item) {x : Item} (hx : x ∈ items) :
    x ∈ items.foldl (adjoin b) kept ∨ ∃ y ∈ items.foldl (adjoin b) kept, b.same y x = true := by
  induction items generalizing kept with
  | nil => cases hx
  | cons z items ih =>
    rcases List.mem_cons.mp hx with rfl | hx
    · have hlater := subset_foldl_adjoin (b := b) items (adjoin b kept x)
      rcases covered_adjoin (b := b) kept x with hmem | ⟨y, hy, hsame⟩
      · exact .inl (hlater hmem)
      · exact .inr ⟨y, hlater hy, hsame⟩
    · exact ih _ hx

theorem foldl_adjoin_of_distinct (h : Distinct b (kept ++ items)) :
    items.foldl (adjoin b) kept = kept ++ items := by
  induction items generalizing kept with
  | nil => simp
  | cons x items ih =>
    rw [List.append_cons] at h
    have hx := (distinct_concat_iff.mp (h.sublist (List.sublist_append_left ..))).2
    have hstep : adjoin b kept x = kept ++ [x] := by
      rw [adjoin, hx]
      rfl
    rw [List.foldl_cons, hstep, ih h]
    exact (List.append_cons kept x items).symm

/-! ### Union and intersection -/

theorem union_represents (b : Backend) (items : List Item) :
    Represents b (fun _ => True) items (union b items) where
  sublist := foldl_adjoin_sublist items []
  all_wanted _ _ := trivial
  distinct := distinct_foldl_adjoin List.Pairwise.nil items
  covers _ hx _ := covered_foldl_adjoin [] hx

theorem union_of_distinct (h : Distinct b items) : union b items = items := by
  rw [← List.nil_append items] at h
  exact foldl_adjoin_of_distinct h

/-- The intersection is a union of the items that are in every other set. -/
theorem intersection_eq (b : Backend) (first : List Item) (others : List (List Item)) :
    intersection b (first :: others) =
      union b (first.filter fun x => others.all fun set => member b set x) := by
  rw [union, List.foldl_filter, intersection]
  congr 1
  funext kept x
  cases others.all fun set => member b set x with
  | false => rfl
  | true => cases hx : member b kept x <;> simp

theorem intersection_represents (b : Backend) (first : List Item) (others : List (List Item)) :
    Represents b (fun x => ∀ set ∈ others, ∃ y ∈ set, b.same y x = true) first
      (intersection b (first :: others)) := by
  have hin (x : Item) : (others.all fun set => member b set x) = true ↔
      ∀ set ∈ others, ∃ y ∈ set, b.same y x = true := by
    simp only [List.all_eq_true, member_iff]
  obtain ⟨hsublist, -, hdistinct, hcovers⟩ :=
    union_represents b (first.filter fun x => others.all fun set => member b set x)
  rw [← intersection_eq] at hsublist hdistinct hcovers
  refine ⟨hsublist.trans List.filter_sublist, ?_, hdistinct, ?_⟩
  · intro x hx
    exact (hin x).mp (List.mem_filter.mp (hsublist.subset hx)).2
  · intro x hx hwanted
    exact hcovers x (List.mem_filter.mpr ⟨hx, (hin x).mpr hwanted⟩) trivial

/-! ### Calls -/

section

variable {env : Env} {name : String} {args : List Argument} {context input : List Item}
  {sets : List (List Item)} {c c' : Context}

theorem runFrom_joined {ms : List (EvalM (List Item))}
    (h : (separately ms).runFrom c = (.ok sets, c')) :
    (EvalM.joined ms).runFrom c = (.ok sets.flatten, c') := by
  induction ms generalizing sets c with
  | nil =>
    cases h
    rfl
  | cons m ms ih =>
    obtain ⟨here, c₁, hm, hrest⟩ := EvalM.ok_of_runFrom_bind h
    obtain ⟨rest, c₂, hms, hout⟩ := EvalM.ok_of_runFrom_bind hrest
    cases hout
    exact (EvalM.runFrom_bind_ok hm _).trans (EvalM.runFrom_bind_ok (ih hms) _)

theorem runFrom_union (hargs : args ≠ [])
    (h : (separately (Argument.against args context)).runFrom c = (.ok sets, c')) :
    (unionFunction.apply env name args context input).runFrom c =
      (.ok (union env.backend sets.flatten), c') := by
  have hgather : (gather (Argument.against args context) input).runFrom c =
      (.ok sets.flatten, c') := by
    rw [gather, if_neg (by simpa [Argument.against] using hargs)]
    exact runFrom_joined h
  exact EvalM.runFrom_bind_ok hgather _

theorem runFrom_intersection
    (h : (separately (Argument.against args context)).runFrom c = (.ok sets, c')) :
    (intersectionFunction.apply env name args context input).runFrom c =
      (.ok (intersection env.backend sets), c') :=
  EvalM.runFrom_bind_ok h _

end

/-- Union and intersection as set operations, for arguments that give a first set and others. What union
keeps represents all items of the arguments, and union of it alone is itself; what intersection keeps
represents the items of the first set that have a strict equal in every other one. -/
theorem set_operations {env : Env} {name : String} {args : List Argument}
    {context input first : List Item} {others : List (List Item)} {c c' : Context}
    (h : (separately (Argument.against args context)).runFrom c = (.ok (first :: others), c')) :
    (∃ kept, (unionFunction.apply env name args context input).runFrom c = (.ok kept, c') ∧
      Represents env.backend (fun _ => True) (first :: others).flatten kept ∧
      ∀ args' context' input' d d',
        (separately (Argument.against args' context')).runFrom d = (.ok [kept], d') →
          (unionFunction.apply env name args' context' input').runFrom d = (.ok kept, d')) ∧
    (∃ kept, (intersectionFunction.apply env name args context input).runFrom c = (.ok kept, c') ∧
      Represents env.backend (fun x => ∀ set ∈ others, ∃ y ∈ set, env.backend.same y x = true)
        first kept) := by
  have hargs {args : List Argument} {context set : List Item} {sets : List (List Item)}
      {d d' : Context}
      (h : (separately (Argument.against args context)).runFrom d = (.ok (set :: sets), d')) :
      args ≠ [] := by
    rintro rfl
    cases h
  have hunion := union_represents env.backend (first :: others).flatten
  refine ⟨⟨_, runFrom_union (hargs h) h, hunion, ?_⟩,
    ⟨_, runFrom_intersection h, intersection_represents env.backend first others⟩⟩
  intro args' context' input' d d' hkept
  rw [runFrom_union (hargs hkept) hkept, List.flatten_singleton, union_of_distinct hunion.distinct]

/-- Two integers next to each other and the real that both are equal to: the real is dropped for the first
integer, and the second one stays. -/
theorem set_operations_rounded :
    let env : Env := ⟨Json.backend ⟨.null, trivial⟩, .default, false⟩
    let odd : Item := .scalar (.int 9007199254740993)
    let even : Item := .scalar (.int 9007199254740992)
    let real : Item := .scalar (.real 9007199254740992.0)
    let args : List Argument := evalArgs env .builtins
      [.list [.literal (.int 9007199254740993), .literal (.real 9007199254740992.0)],
        .list [.literal (.int 9007199254740992), .literal (.real 9007199254740992.0)]]
    (separately (Argument.against args [])).runFrom .initial =
        (.ok [[odd, real], [even, real]], .initial) ∧
      (unionFunction.apply env "union" args [] []).runFrom .initial = (.ok [odd, even], .initial) ∧
      Represents env.backend (fun _ => True) [odd, real, even, real] [odd, even] ∧
      Represents env.backend (fun x => ∀ set ∈ [[even, real]], ∃ y ∈ set, env.backend.same y x = true)
        [odd, real] [odd] := by
  intro env odd even real args
  have hargs : (separately (Argument.against args [])).runFrom .initial =
      (.ok [[odd, real], [even, real]], .initial) := rfl
  obtain ⟨⟨all, hall, hrepresents, -⟩, ⟨common, hcommon, hrepresents'⟩⟩ :=
    @set_operations env "union" args [] [] _ _ _ _ hargs
  obtain rfl : all = [odd, even] := by
    have hkept := hall.symm.trans (runFrom_union (List.cons_ne_nil _ _) hargs)
    have hunion : union env.backend [odd, real, even, real] = [odd, even] := by decide +kernel
    exact (Except.ok.inj (congrArg Prod.fst hkept)).trans hunion
  obtain rfl : common = [odd] := by
    have hkept := hcommon.symm.trans (runFrom_intersection hargs)
    have hintersection : intersection env.backend [[odd, real], [even, real]] = [odd] := by
      decide +kernel
    exact (Except.ok.inj (congrArg Prod.fst hkept)).trans hintersection
  exact ⟨hargs, hall, hrepresents, hrepresents'⟩

end Builtin
end PathQuery
