import PathQuery.Proofs.Eval.CorrespondingBuiltins
import PathQuery.Proofs.Eval.CorrespondingEvaluation

/-!
# Evaluations give the context back

A filter puts a list in force and moves the index in it, and a step opens a scope to tell repeats. Both
go back to what they found, also when something inside fails. So an evaluation leaves the list, the
index and the scopes as they were, whatever it comes to.
-/

namespace PathQuery

/-- The list in force, the index and the open scopes are the same again. -/
structure Context.Restored (c c' : Context) : Prop where
  items : c'.items = c.items
  index : c'.index = c.index
  scopes : c'.scopes = c.scopes

theorem Context.Restored.refl (c : Context) : c.Restored c := ⟨rfl, rfl, rfl⟩

theorem Context.Restored.trans {c₁ c₂ c₃ : Context} (h : c₁.Restored c₂) (h' : c₂.Restored c₃) :
    c₁.Restored c₃ :=
  ⟨h'.items.trans h.items, h'.index.trans h.index, h'.scopes.trans h.scopes⟩

theorem Context.restored_record (c : Context) (a : Address) (found : List (Address × Place)) :
    c.Restored (c.record a found) := ⟨rfl, rfl, rfl⟩

namespace EvalM

variable {α β : Type}

def Restores (m : EvalM α) : Prop := ∀ c : Context, c.Restored (m.runFrom c).2

/-- Whatever the computation comes to, the scopes that are open are those that were. -/
def KeepsScopes (m : EvalM α) : Prop :=
  ∀ c : Context, (m.runFrom c).2.scopes = c.scopes

theorem Restores.keepsScopes {m : EvalM α} (h : Restores m) : KeepsScopes m := fun c => (h c).scopes

namespace Restores

theorem pure (x : α) : Restores (Pure.pure x) := fun c => .refl c

theorem update {f : Context → Context} (h : ∀ c : Context, c.Restored (f c)) :
    Restores (modify f) := h

theorem bind {m : EvalM α} {k : α → EvalM β} (hm : Restores m) (hk : ∀ x, Restores (k x)) :
    Restores (m >>= k) :=
  fun c => (hm c).trans (rel_after Context.Restored.refl m hk c)

theorem handOut (found : List (Address × List (Address × Place))) :
    Restores (modify fun c => found.foldl (fun c f => c.record f.1 f.2) c) := by
  refine update fun c => ?_
  induction found generalizing c with
  | nil => exact .refl c
  | cons f found ih => exact (c.restored_record f.1 f.2).trans (ih _)

theorem distinct (items : List Item) : Restores (EvalM.distinct items) := by
  intro c
  rw [runFrom_distinct]
  exact .refl c

theorem noted (env : Env) (e : TraceEvent) (c : Context) : c.Restored (EvalM.noted env e c) := by
  unfold EvalM.noted
  split
  · exact ⟨rfl, rfl, rfl⟩
  · exact .refl c

theorem settle (env : Env) (outcome : Except ArithmeticFailure Scalar) :
    Restores (EvalM.settle env outcome) := by
  cases outcome with
  | ok v => exact pure [Item.scalar v]
  | error f =>
    rw [EvalM.settle, emit_eq]
    split
    · exact fun c => .refl c
    · exact (update (noted env _)).bind fun _ => pure []

theorem traced {env : Env} {m : EvalM (List Item)} (t : Term) (count : Nat) (h : Restores m) :
    Restores (EvalM.traced env t count m) := by
  intro c
  have hstart := (noted env (.start t count) c).trans (noted env .enter _)
  have hbody := hstart.trans (h _)
  rw [runFrom_traced]
  split
  · rename_i items c' hrun
    rw [hrun] at hbody
    exact (hbody.trans (noted env .exit c')).trans (noted env _ _)
  · rename_i e c' hrun
    rw [hrun] at hbody
    exact hbody.trans (noted env .exit c')

/-- What runs inside a list may move the index: it is put back with the list. -/
theorem within {m : EvalM α} (items : List Item) (h : KeepsScopes m) :
    Restores (EvalM.within items m) := by
  intro c
  rw [runFrom_within]
  exact ⟨rfl, rfl, h _⟩

end Restores

theorem KeepsScopes.bind {m : EvalM α} {k : α → EvalM β} (hm : KeepsScopes m)
    (hk : ∀ x, KeepsScopes (k x)) : KeepsScopes (m >>= k) := by
  intro c
  have hafter := rel_after (R := fun c c' => c'.scopes = c.scopes) (fun _ => rfl) m hk c
  exact hafter.trans (hm c)

/-- To give the context back is a correspondence of each computation by itself. -/
def Restores.correspondence (env : Env) : Correspondence env env.settings env.traced where
  rel m _ := Restores m
  inner m _ := KeepsScopes m
  unknown := True
  agrees := env.agrees_settings
  pure := .pure
  bind := .bind
  read _ c := .refl c
  handOut := .handOut
  distinct := .distinct
  settle := .settle env
  traced := .traced
  unregistered _ _ c := .refl c
  inner_of_rel h := h.keepsScopes
  inner_bind := .bind
  inner_index _ _ := rfl
  within := .within

end EvalM

open EvalM

variable (env : Env)

theorem Term.eval_restores (t : Term) (items : List Item) :
    Restores (t.eval env .builtins items) :=
  t.eval_corresponds (Restores.correspondence env) (Builtin.covers_builtins _) (.inl trivial) items

theorem Segment.step_restores (s : Segment) (items : List Item) :
    Restores (s.step env .builtins items) :=
  s.step_corresponds (Restores.correspondence env) (Builtin.covers_builtins _) (.inl trivial) items

theorem selectTerms_restores (ts : List Term) (items : List Item) :
    Restores (selectTerms env .builtins ts items) :=
  selectTerms_corresponds (Restores.correspondence env) (Builtin.covers_builtins _) ts (.inl trivial)
    items

/-- What `position()` answers depends on the index alone. -/
theorem eval_position_fst (items : List Item) (c : Context) :
    (((Term.call "position" []).eval env .builtins items).runFrom c).1 =
      .ok (c.index.map fun i => Item.scalar (.int (Int64.ofNat i))).toList := by
  have hfind : Registry.builtins.find? "position" = some Builtin.position := rfl
  have hnoted : ∀ e c, (noted env e c).index = c.index := fun e c => (Restores.noted env e c).index
  have hrun : ∀ c, (Builtin.position.apply env "position" [] items items).runFrom c =
      (.ok (c.index.map fun i => Item.scalar (.int (Int64.ofNat i))).toList, c) := fun _ => rfl
  rw [Term.eval, callFunction, hfind, evalArgs, runFrom_traced, hrun, hnoted, hnoted]

theorem Context.Restored.position_eq {c c' : Context} (h : c.Restored c') (items : List Item) :
    (((Term.call "position" []).eval env .builtins items).runFrom c').1 =
      (((Term.call "position" []).eval env .builtins items).runFrom c).1 := by
  rw [eval_position_fst, eval_position_fst, h.index]

end PathQuery
