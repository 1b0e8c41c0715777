import PathQuery.Proofs.Eval.Distinct

/-!
# Running computations

What the small computations do to a context: which of them give a result whatever the context is,
and what they leave behind.
-/

namespace PathQuery
namespace EvalM

section

variable {α β : Type} {c c' : Context}

@[simp] theorem runFrom_pure (x : α) (c : Context) :
    (pure x : EvalM α).runFrom c = (.ok x, c) := rfl

@[simp] theorem runFrom_modify (f : Context → Context) (c : Context) :
    (modify f : EvalM Unit).runFrom c = (.ok (), f c) := rfl

@[simp] theorem runFrom_get (c : Context) : (get : EvalM Context).runFrom c = (.ok c, c) := rfl

theorem runFrom_within (items : List Item) (body : EvalM α) (c : Context) :
    (within items body).runFrom c =
      ((body.runFrom { c with items := items, index := none }).1,
        (body.runFrom { c with items := items, index := none }).2.leave ⟨c.items, c.index⟩) := rfl

theorem runFrom_isNew (item : Item) (c : Context) :
    (isNew item).runFrom c = (.ok (c.isNew item).1, (c.isNew item).2) := rfl

theorem runFrom_bind (m : EvalM α) (k : α → EvalM β) (c : Context) :
    (m >>= k).runFrom c =
      match m.runFrom c with
      | (.ok x, c') => (k x).runFrom c'
      | (.error e, c') => (.error e, c') := by
  simp only [runFrom, ExceptT.run_bind, StateT.run_bind]
  cases m.run.run c with
  | mk outcome after => cases outcome <;> rfl

theorem runFrom_bind_ok {m : EvalM α} {x : α} (h : m.runFrom c = (.ok x, c')) (k : α → EvalM β) :
    (m >>= k).runFrom c = (k x).runFrom c' := by
  rw [runFrom_bind, h]

theorem ok_of_runFrom_bind {m : EvalM α} {k : α → EvalM β} {y : β}
    (h : (m >>= k).runFrom c = (.ok y, c')) :
    ∃ x c₁, m.runFrom c = (.ok x, c₁) ∧ (k x).runFrom c₁ = (.ok y, c') := by
  rw [runFrom_bind] at h
  split at h
  · next x c₁ hm => exact ⟨x, c₁, hm, h⟩
  · cases h

/-- What follows a computation leads from the context that it ends in to a related one. Without a result
nothing follows, and the context is the same. -/
theorem rel_after {R : Context → Context → Prop} (hrefl : ∀ c, R c c) (m : EvalM α) {k : α → EvalM β}
    (hk : ∀ x c, R c ((k x).runFrom c).2) (c : Context) :
    R (m.runFrom c).2 ((m >>= k).runFrom c).2 := by
  rw [runFrom_bind]
  cases m.runFrom c with
  | mk outcome c' =>
    cases outcome with
    | ok x => exact hk x c'
    | error e => exact hrefl c'

end

/-! ### Scopes -/

theorem runFrom_keepNew (items : List Item) (c : Context) (seen : AddressSet)
    (outer : List AddressSet) :
    ∃ seen', (keepNew items).runFrom { c with scopes := seen :: outer } =
      (.ok ((Item.withoutRepeats items).filter (Item.isFresh seen.contains)),
        { c with scopes := seen' :: outer }) := by
  induction items generalizing seen with
  | nil => exact ⟨seen, rfl⟩
  | cons item items ih =>
    simp only [keepNew, Item.withoutRepeats, List.filter_cons]
    cases item with
    | scalar v =>
      obtain ⟨seen', hrest⟩ := ih seen
      refine ⟨seen', ?_⟩
      rw [runFrom_bind_ok (runFrom_isNew _ _)]
      simp only [Context.isNew]
      rw [runFrom_bind_ok hrest, Item.differs_scalar, List.filter_true]
      rfl
    | node a =>
      rw [runFrom_bind_ok (runFrom_isNew _ _)]
      cases ha : seen.contains a with
      | true =>
        obtain ⟨seen', hrest⟩ := ih seen
        refine ⟨seen', ?_⟩
        simp only [Context.isNew, ha, if_true]
        rw [runFrom_bind_ok hrest, Item.filter_differs_of_seen ha]
        simp [Item.isFresh, ha]
      | false =>
        obtain ⟨seen', hrest⟩ := ih (seen.insert a)
        refine ⟨seen', ?_⟩
        simp only [Context.isNew, ha, Bool.false_eq_true, if_false]
        rw [runFrom_bind_ok hrest, Item.filter_differs_insert]
        simp [Item.isFresh, ha]

/-- To keep the nodes met for the first time is to drop repeats, and leaves no trace. -/
theorem runFrom_distinct (items : List Item) (c : Context) :
    (distinct items).runFrom c = (.ok (Item.withoutRepeats items), c) := by
  obtain ⟨seen, hkept⟩ := runFrom_keepNew items c ∅ c.scopes
  have hall : (Item.withoutRepeats items).filter (Item.isFresh (∅ : AddressSet).contains) =
      Item.withoutRepeats items := by
    rw [List.filter_eq_self]
    intro x _
    cases x <;> simp [Item.isFresh]
  rw [hall] at hkept
  unfold distinct
  rw [runFrom_bind_ok (runFrom_modify _ c), Context.pushScope, runFrom_bind_ok hkept]
  rfl

end EvalM
end PathQuery
