import Mathlib
import PathQuery.Eval.Builtin
import PathQuery.Proofs.Eval.Running
import PathQuery.Tree.JsonBackend

/-!
# Sums of integers

The sum of integers is checked after each item. It is the exact total as long as the totals on the way
have 64 bits, and a real from the first one that has not, even if the rest would lead back.
-/

namespace PathQuery
namespace Backend

/-! ### Totals -/

/-- The item is an integer or a node that holds one. -/
def IsInteger (b : Backend) (x : Item) : Prop := ∃ n : Int64, b.reduce x = .scalar (.int n)

/-- The integer that an item is or holds; everything else counts for nothing. -/
def integerOf (b : Backend) (x : Item) : Int :=
  match b.reduce x with
  | .scalar (.int n) => n.toInt
  | _ => 0

def total (b : Backend) (items : List Item) : Int := (items.map b.integerOf).sum

def gains (b : Backend) (items : List Item) : Int := (items.map fun x => max 0 (b.integerOf x)).sum

def losses (b : Backend) (items : List Item) : Int := (items.map fun x => min 0 (b.integerOf x)).sum

end Backend

/-- No total on the way from the first item to the last leaves the integers of 64 bits. -/
def Backend.StaysInRange (b : Backend) (items : List Item) : Prop :=
  ∀ first, first <+: items → IsInt64 (b.total first)

instance (b : Backend) (items : List Item) : Decidable (b.StaysInRange items) :=
  decidable_of_iff (∀ first ∈ items.inits, IsInt64 (b.total first)) (by
    simp only [Backend.StaysInRange, List.mem_inits])

/-- No total on the way leaves the integers of 64 bits if `e` was reached before the first item. -/
def Backend.StaysInRangeFrom (b : Backend) (e : Int) (items : List Item) : Prop :=
  ∀ first, first <+: items → IsInt64 (e + b.total first)

namespace Backend

variable {b : Backend} {items : List Item}

@[simp] theorem total_nil (b : Backend) : b.total [] = 0 := rfl

theorem total_cons (b : Backend) (x : Item) (items : List Item) :
    b.total (x :: items) = b.integerOf x + b.total items := rfl

theorem total_perm {other : List Item} (h : other.Perm items) : b.total other = b.total items :=
  (h.map _).sum_eq

/-- Part of the items has a total between that of the negative integers and that of the positive ones. -/
theorem total_sublist {part : List Item} (h : part.Sublist items) :
    b.losses items ≤ b.total part ∧ b.total part ≤ b.gains items := by
  induction h with
  | slnil => exact ⟨le_rfl, le_rfl⟩
  | cons x _ ih =>
    simp only [losses, gains, List.map_cons, List.sum_cons] at ih ⊢
    omega
  | cons_cons x _ ih =>
    simp only [losses, gains, List.map_cons, List.sum_cons, total_cons] at ih ⊢
    omega

/-- No order leaves the range if neither the positive nor the negative integers do alone. -/
theorem staysInRange_of_perm (hgains : IsInt64 (b.gains items)) (hlosses : IsInt64 (b.losses items))
    {other : List Item} (h : other.Perm items) : b.StaysInRange other := by
  intro first hfirst
  have hbetween := total_sublist (b := b) hfirst.sublist
  have hsame : b.gains other = b.gains items ∧ b.losses other = b.losses items :=
    ⟨(h.map _).sum_eq, (h.map _).sum_eq⟩
  rw [hsame.1, hsame.2] at hbetween
  exact ⟨hlosses.1.trans hbetween.1, hbetween.2.trans_lt hgains.2⟩

theorem StaysInRangeFrom.start {e : Int} (h : b.StaysInRangeFrom e items) : IsInt64 e :=
  Int.add_zero e ▸ h [] List.nil_prefix

theorem staysInRangeFrom_nil {e : Int} : b.StaysInRangeFrom e [] ↔ IsInt64 e := by
  refine ⟨StaysInRangeFrom.start, fun h first hfirst => ?_⟩
  rw [List.prefix_nil.mp hfirst, total_nil, Int.add_zero]
  exact h

theorem staysInRangeFrom_cons {e : Int} {x : Item} :
    b.StaysInRangeFrom e (x :: items) ↔
      IsInt64 e ∧ b.StaysInRangeFrom (e + b.integerOf x) items := by
  constructor
  · refine fun h => ⟨h.start, fun first hfirst => ?_⟩
    rw [Int.add_assoc, ← total_cons]
    exact h (x :: first) (List.cons_prefix_cons.mpr ⟨rfl, hfirst⟩)
  · rintro ⟨hstart, hrest⟩ first hfirst
    obtain rfl | ⟨more, rfl, hmore⟩ := List.prefix_cons_iff.mp hfirst
    · rw [total_nil, Int.add_zero]
      exact hstart
    · rw [total_cons, ← Int.add_assoc]
      exact hrest more hmore

end Backend

/-! ### Adding up -/

namespace Builtin

variable {b : Backend}

theorem exact_add {x : Item} (hx : b.IsInteger x) (t : Total) :
    (t.add b x).exact = t.exact.bind fun e => fitInt64? (e.toInt + b.integerOf x) := by
  obtain ⟨n, hn⟩ := hx
  simp only [Total.add, Backend.integerOf, hn]

theorem exact_foldl_none {items : List Item} (hitems : ∀ x ∈ items, b.IsInteger x) {t : Total}
    (ht : t.exact = none) : (items.foldl (Total.add b) t).exact = none := by
  induction items generalizing t with
  | nil => exact ht
  | cons x items ih =>
    obtain ⟨hx, hrest⟩ := List.forall_mem_cons.mp hitems
    apply ih hrest
    rw [exact_add hx, ht, Option.bind_none]

/-- From an exact total on, the items lead to another one just if no total on the way leaves the range. -/
theorem exact_foldl {items : List Item} (hitems : ∀ x ∈ items, b.IsInteger x) {t : Total} {e : Int64}
    (ht : t.exact = some e) (i : Int64) :
    (items.foldl (Total.add b) t).exact = some i ↔
      b.StaysInRangeFrom e.toInt items ∧ i.toInt = e.toInt + b.total items := by
  induction items generalizing t e with
  | nil =>
    rw [List.foldl_nil, ht, Option.some.injEq, Backend.staysInRangeFrom_nil, Backend.total_nil,
      Int.add_zero, Int64.toInt_inj]
    exact ⟨fun h => ⟨isInt64_toInt e, h.symm⟩, fun h => h.2.symm⟩
  | cons x items ih =>
    obtain ⟨hx, hrest⟩ := List.forall_mem_cons.mp hitems
    have hstep := exact_add hx t
    rw [ht, Option.bind_some] at hstep
    rw [List.foldl_cons, Backend.staysInRangeFrom_cons, and_iff_right (isInt64_toInt e),
      Backend.total_cons, ← Int.add_assoc]
    cases hnext : fitInt64? (e.toInt + b.integerOf x) with
    | none =>
      -- once the total is no longer exact it stays so
      rw [exact_foldl_none hrest (hstep.trans hnext)]
      constructor
      · intro h
        cases h
      · intro h
        obtain ⟨next, hsome⟩ := exists_fitInt64?_iff.mpr h.1.start
        rw [hnext] at hsome
        cases hsome
    | some next =>
      rw [ih hrest (hstep.trans hnext), fitInt64?_eq_some_iff.mp hnext]

theorem Total.scalar_eq_int_iff {t : Total} {i : Int64} : t.scalar = .int i ↔ t.exact = some i := by
  cases ht : t.exact <;> simp [Total.scalar, ht]

/-! ### The sum -/

section

variable {items : List Item} (hitems : ∀ x ∈ items, b.IsInteger x)

include hitems

theorem sum_eq_int_iff (i : Int64) :
    sum b items = .int i ↔ b.StaysInRange items ∧ i.toInt = b.total items := by
  have hexact := exact_foldl hitems (t := ⟨some 0, 0.0⟩) (e := 0) rfl i
  simp only [Backend.StaysInRangeFrom, Int64.toInt_zero, Int.zero_add] at hexact
  rw [sum, Total.scalar_eq_int_iff, hexact, Backend.StaysInRange]

theorem sum_eq_int (h : b.StaysInRange items) :
    ∃ i : Int64, sum b items = .int i ∧ i.toInt = b.total items := by
  obtain ⟨i, hi⟩ := exists_fitInt64?_iff.mpr (h items List.prefix_rfl)
  have htotal := fitInt64?_eq_some_iff.mp hi
  exact ⟨i, (sum_eq_int_iff hitems i).mpr ⟨h, htotal⟩, htotal⟩

theorem sum_eq_real (h : ¬ b.StaysInRange items) : ∃ r, sum b items = .real r := by
  cases hexact : (items.foldl (Total.add b) ⟨some 0, 0.0⟩).exact with
  | some i => exact absurd ((sum_eq_int_iff hitems i).mp (Total.scalar_eq_int_iff.mpr hexact)).1 h
  | none =>
    rw [sum, Total.scalar, hexact]
    exact ⟨_, rfl⟩

end

theorem isInteger_of_perm {items other : List Item} (hitems : ∀ x ∈ items, b.IsInteger x)
    (h : other.Perm items) : ∀ x ∈ other, b.IsInteger x :=
  fun x hx => hitems x (h.mem_iff.mp hx)

theorem runFrom_sum {env : Env} {name : String} {args : List Argument}
    {context input items : List Item} {c c' : Context}
    (h : (gather (Argument.against args context) input).runFrom c = (.ok items, c')) :
    (sumFunction.apply env name args context input).runFrom c =
      (.ok [.scalar (sum env.backend items)], c') :=
  EvalM.runFrom_bind_ok h _

/-- The sum of integers is their exact total if no total on the way leaves 64 bits, and otherwise a real.
Two orders that both stay in range have the same sum, and every order does if neither the positive nor
the negative integers alone leave it. -/
theorem sum_of_integers {env : Env} {items : List Item}
    (hitems : ∀ x ∈ items, env.backend.IsInteger x) :
    (∀ name args context input c c',
      (gather (Argument.against args context) input).runFrom c = (.ok items, c') →
        (sumFunction.apply env name args context input).runFrom c =
          (.ok [.scalar (sum env.backend items)], c')) ∧
    (env.backend.StaysInRange items →
      ∃ i : Int64, sum env.backend items = .int i ∧ i.toInt = env.backend.total items) ∧
    (¬ env.backend.StaysInRange items → ∃ r, sum env.backend items = .real r) ∧
    (∀ other, other.Perm items → env.backend.StaysInRange items → env.backend.StaysInRange other →
      sum env.backend other = sum env.backend items) ∧
    (IsInt64 (env.backend.gains items) → IsInt64 (env.backend.losses items) →
      ∀ other, other.Perm items →
        ∃ i : Int64, sum env.backend other = .int i ∧ i.toInt = env.backend.total items) := by
  refine ⟨fun _ _ _ _ _ _ => runFrom_sum, sum_eq_int hitems, sum_eq_real hitems, ?_, ?_⟩
  · intro other hperm hrange hother
    obtain ⟨i, hsum, htotal⟩ := sum_eq_int hitems hrange
    rw [hsum, sum_eq_int_iff (isInteger_of_perm hitems hperm), Backend.total_perm hperm]
    exact ⟨hother, htotal⟩
  · intro hgains hlosses other hperm
    obtain ⟨i, hsum, htotal⟩ := sum_eq_int (isInteger_of_perm hitems hperm)
      (Backend.staysInRange_of_perm hgains hlosses hperm)
    exact ⟨i, hsum, htotal.trans (Backend.total_perm hperm)⟩

/-- Elements of a list and a computed integer: the negative one comes first and leaves room for the
others. -/
theorem sum_of_integers_list :
    let d : Json.Document := ⟨.array [.number (.int 5), .number (.int (-7))],
      by simp [Json.Ordered, Json.OrderedItems]⟩
    let env : Env := ⟨Json.backend d, .default, false⟩
    let items : List Item := [.node [1], .scalar (.int Int64.maxValue), .node [0]]
    (∀ x ∈ items, env.backend.IsInteger x) ∧ env.backend.StaysInRange items ∧
      sum env.backend items = .int (Int64.maxValue - 2) := by
  intro d env items
  have hitems : ∀ x ∈ items, env.backend.IsInteger x := by
    simp only [items, List.forall_mem_cons]
    exact ⟨⟨-7, rfl⟩, ⟨Int64.maxValue, rfl⟩, ⟨5, rfl⟩, List.forall_mem_nil _⟩
  have hrange : env.backend.StaysInRange items := by decide +kernel
  obtain ⟨i, hsum, htotal⟩ := (sum_of_integers hitems).2.1 hrange
  have hi : i = Int64.maxValue - 2 := Int64.toInt_inj.mp (htotal.trans (by decide +kernel))
  exact ⟨hitems, hrange, hi ▸ hsum⟩

/-- A total that would fit is no integer if the way to it leaves the range, and another order gives the
integer. -/
theorem sum_out_of_range :
    let b : Backend := Json.backend ⟨.null, trivial⟩
    let items : List Item :=
      [.scalar (.int Int64.maxValue), .scalar (.int 1), .scalar (.int (-1))]
    let other : List Item :=
      [.scalar (.int 1), .scalar (.int (-1)), .scalar (.int Int64.maxValue)]
    (∀ x ∈ items, b.IsInteger x) ∧ IsInt64 (b.total items) ∧ other.Perm items ∧
      (∀ i, sum b items ≠ .int i) ∧ sum b other = .int Int64.maxValue ∧ sum b other ≠ sum b items := by
  intro b items other
  have hitems : ∀ x ∈ items, b.IsInteger x := by
    simp only [items, List.forall_mem_cons]
    exact ⟨⟨_, rfl⟩, ⟨_, rfl⟩, ⟨_, rfl⟩, List.forall_mem_nil _⟩
  have hperm : other.Perm items := by decide +kernel
  have hreal : ∀ i, sum b items ≠ .int i := by
    intro i hi
    exact absurd ((sum_eq_int_iff hitems i).mp hi).1 (by decide +kernel)
  have hother : sum b other = .int Int64.maxValue := by
    rw [sum_eq_int_iff (isInteger_of_perm hitems hperm)]
    decide +kernel
  refine ⟨hitems, by decide +kernel, hperm, hreal, hother, ?_⟩
  rw [hother]
  exact (hreal _).symm

end Builtin
end PathQuery
