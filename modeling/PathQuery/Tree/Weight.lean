/-!
# Total weights

The weights of the elements of a list taken together. Sizes of trees are totals over their children,
and a walk over a tree ends because the total weight of what is left to visit goes down.
-/

namespace PathQuery

def totalOf {α : Type} (weight : α → Nat) : List α → Nat
  | [] => 0
  | x :: xs => weight x + totalOf weight xs

@[simp] theorem totalOf_nil {α : Type} (weight : α → Nat) : totalOf weight [] = 0 := rfl

@[simp] theorem totalOf_cons {α : Type} (weight : α → Nat) (x : α) (xs : List α) :
    totalOf weight (x :: xs) = weight x + totalOf weight xs := rfl

@[simp] theorem totalOf_append {α : Type} (weight : α → Nat) (xs ys : List α) :
    totalOf weight (xs ++ ys) = totalOf weight xs + totalOf weight ys := by
  induction xs with
  | nil => simp
  | cons x xs ih => simp [ih, Nat.add_assoc]

theorem totalOf_map {α β : Type} (weight : β → Nat) (f : α → β) (xs : List α) :
    totalOf weight (xs.map f) = totalOf (fun x => weight (f x)) xs := by
  induction xs with
  | nil => rfl
  | cons x xs ih => simp [ih]

theorem totalOf_eq_of_getElem {α β : Type} {f : α → Nat} {g : β → Nat} {xs : List α} {ys : List β}
    (hlen : xs.length = ys.length)
    (h : ∀ i (hx : i < xs.length) (hy : i < ys.length), f xs[i] = g ys[i]) :
    totalOf f xs = totalOf g ys := by
  induction xs generalizing ys with
  | nil =>
    cases ys with
    | nil => rfl
    | cons y ys => simp at hlen
  | cons x xs ih =>
    cases ys with
    | nil => simp at hlen
    | cons y ys =>
      have hhead : f x = g y := h 0 (by simp) (by simp)
      have htail : totalOf f xs = totalOf g ys := by
        apply ih (by simpa using hlen)
        intro i hx hy
        exact h (i + 1) (by simpa using hx) (by simpa using hy)
      simp [hhead, htail]

end PathQuery
