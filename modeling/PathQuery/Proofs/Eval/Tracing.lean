import PathQuery.Proofs.Eval.CorrespondingBuiltins
import PathQuery.Proofs.Eval.CorrespondingEvaluation

/-!
# Evaluations with and without a trace

Events are only added to the trace of a context, and nothing looks at them. So an evaluation comes to
the same with and without a trace, and from contexts that are told apart by their traces alone.
-/

namespace PathQuery

def Context.untraced (c : Context) : Context := { c with trace := [] }

namespace EvalM

/-- From contexts that are told apart by their traces at most, the two computations come to the same and
leave such contexts again. -/
def Alike {α : Type} (m m' : EvalM α) : Prop :=
  ∀ c c' : Context, c.untraced = c'.untraced →
    (m.runFrom c).1 = (m'.runFrom c').1 ∧ (m.runFrom c).2.untraced = (m'.runFrom c').2.untraced

theorem untraced_noted (env : Env) (e : TraceEvent) (c : Context) :
    (noted env e c).untraced = c.untraced := by
  unfold noted
  split
  · rfl
  · rfl

namespace Alike

variable {α β : Type}

theorem symm {m m' : EvalM α} (h : Alike m m') : Alike m' m := fun c c' hc =>
  let ⟨houtcome, hafter⟩ := h c' c hc.symm
  ⟨houtcome.symm, hafter.symm⟩

theorem trans {m₁ m₂ m₃ : EvalM α} (h : Alike m₁ m₂) (h' : Alike m₂ m₃) : Alike m₁ m₃ := fun c c' hc =>
  let ⟨houtcome, hafter⟩ := h c c' hc
  let ⟨houtcome', hafter'⟩ := h' c' c' rfl
  ⟨houtcome.trans houtcome', hafter.trans hafter'⟩

theorem pure (x : α) : Alike (Pure.pure x) (Pure.pure x) := fun _ _ h => ⟨rfl, h⟩

theorem throw (e : EvalError) : Alike (throw e : EvalM α) (throw e) := fun _ _ h => ⟨rfl, h⟩

theorem update {f g : Context → Context}
    (h : ∀ c c', c.untraced = c'.untraced → (f c).untraced = (g c').untraced) :
    Alike (modify f) (modify g) :=
  fun c c' hc => ⟨rfl, h c c' hc⟩

theorem bind {m m' : EvalM α} {k k' : α → EvalM β} (hm : Alike m m')
    (hk : ∀ x, Alike (k x) (k' x)) : Alike (m >>= k) (m' >>= k') := by
  intro c c' hc
  obtain ⟨houtcome, hafter⟩ := hm c c' hc
  rw [runFrom_bind, runFrom_bind]
  cases hrun : m.runFrom c with
  | mk outcome after =>
    cases hrun' : m'.runFrom c' with
    | mk outcome' after' =>
      rw [hrun, hrun'] at houtcome hafter
      dsimp only at houtcome hafter
      subst houtcome
      cases outcome with
      | ok x => exact hk x after after' hafter
      | error e => exact ⟨rfl, hafter⟩

theorem read {f : Context → α} (h : Context.Locates f) :
    Alike (do let c ← get; return f c) (do let c ← get; return f c) := by
  intro c c' hc
  have hindex := congrArg Context.index hc
  have hlinks := congrArg Context.links hc
  exact ⟨congrArg Except.ok (h c c' hindex hlinks), hc⟩

theorem handOut (found : List (Address × List (Address × Place))) :
    Alike (modify fun c => found.foldl (fun c f => c.record f.1 f.2) c)
      (modify fun c => found.foldl (fun c f => c.record f.1 f.2) c) := by
  have hcomm : ∀ c : Context, (found.foldl (fun c f => c.record f.1 f.2) c).untraced =
      found.foldl (fun c f => c.record f.1 f.2) c.untraced := by
    induction found with
    | nil => exact fun _ => rfl
    | cons f found ih => exact fun c => ih (c.record f.1 f.2)
  refine update fun c c' hc => ?_
  rw [hcomm, hcomm, hc]

theorem distinct (items : List Item) : Alike (EvalM.distinct items) (EvalM.distinct items) := by
  intro c c' hc
  rw [runFrom_distinct, runFrom_distinct]
  exact ⟨rfl, hc⟩

theorem emit (env env' : Env) (e : TraceEvent) : Alike (EvalM.emit env e) (EvalM.emit env' e) := by
  rw [emit_eq, emit_eq]
  refine update fun c c' hc => ?_
  rw [untraced_noted, untraced_noted, hc]

theorem settle {env env' : Env} (hstrict : env'.settings.strict = env.settings.strict)
    (outcome : Except ArithmeticFailure Scalar) :
    Alike (EvalM.settle env outcome) (EvalM.settle env' outcome) := by
  cases outcome with
  | ok v => exact pure [Item.scalar v]
  | error f =>
    rw [EvalM.settle, EvalM.settle, hstrict]
    split
    · exact throw _
    · exact (emit env env' _).bind fun _ => pure []

theorem untraced {m m' : EvalM (List Item)} (env : Env) (t : Term) (count : Nat) (h : Alike m m') :
    Alike (EvalM.traced env t count m) m' := by
  intro c c' hc
  have hbefore : (noted env .enter (noted env (.start t count) c)).untraced = c'.untraced := by
    simp only [untraced_noted, hc]
  obtain ⟨houtcome, hafter⟩ := h _ _ hbefore
  rw [runFrom_traced]
  cases hrun : m.runFrom (noted env .enter (noted env (.start t count) c)) with
  | mk outcome after =>
    rw [hrun] at houtcome hafter
    cases outcome with
    | ok items => exact ⟨houtcome, by simp only [untraced_noted, hafter]⟩
    | error e => exact ⟨houtcome, by simp only [untraced_noted, hafter]⟩

theorem traced {m m' : EvalM (List Item)} (env env' : Env) (t : Term) (count : Nat)
    (h : Alike m m') : Alike (EvalM.traced env t count m) (EvalM.traced env' t count m') := by
  have hself : Alike m' m' := h.symm.trans h
  exact (h.untraced env t count).trans (hself.untraced env' t count).symm

theorem within {m m' : EvalM α} (items : List Item) (h : Alike m m') :
    Alike (EvalM.within items m) (EvalM.within items m') := by
  intro c c' hc
  have hinside : Context.untraced { c with items := items, index := none } =
      Context.untraced { c' with items := items, index := none } :=
    congrArg (fun c => { c with items := items, index := none }) hc
  obtain ⟨houtcome, hafter⟩ := h _ _ hinside
  have hitems : c.items = c'.items := (congrArg Context.items hc :)
  have hindex : c.index = c'.index := (congrArg Context.index hc :)
  rw [runFrom_within, runFrom_within, hitems, hindex]
  exact ⟨houtcome, congrArg (fun c => c.leave ⟨c'.items, c'.index⟩) hafter⟩

def correspondence (env : Env) (tracing : Bool) : Correspondence env env.settings tracing where
  rel := Alike
  inner := Alike
  unknown := True
  agrees := env.agrees_settings
  pure := pure
  bind := bind
  read := read
  handOut := handOut
  distinct := distinct
  settle := settle rfl
  traced t count h := h.traced _ _ t count
  unregistered _ name := throw (.unregistered name)
  inner_of_rel h := h
  inner_bind := bind
  inner_index i := update fun _ _ hc => congrArg (fun c => { c with index := some i }) hc
  within items h := h.within items

end Alike

end EvalM
end PathQuery
