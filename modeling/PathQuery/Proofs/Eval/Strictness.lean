import PathQuery.Proofs.Eval.CorrespondingBuiltins
import PathQuery.Proofs.Eval.CorrespondingEvaluation

/-!
# Strict computations beside lenient ones

`Stricter m m'` says that two computations do the same from every context, except that where `m'` goes
on with an operation that has failed, `m` may have ended with that failure. The lenient one always
has a result. The relation carries over from the parts of a computation to the whole, so nothing that
a strict computation lets through can depend on a failed operation.
-/

namespace PathQuery

def Env.withStrict (env : Env) (strict : Bool) : Env :=
  { env with settings := { env.settings with strict := strict } }

theorem Env.withStrict_self (env : Env) : env.withStrict env.settings.strict = env := rfl

namespace EvalM

variable {α β : Type}

/-- The second computation has a result from every context. The first one has the same and leaves the
same context, or ends with a failed operation. -/
def Stricter (m m' : EvalM α) : Prop :=
  ∀ c, ∃ x c', m'.runFrom c = (.ok x, c') ∧
    (m.runFrom c = (.ok x, c') ∨ ∃ f c'', m.runFrom c = (.error (.arithmetic f), c''))

namespace Stricter

/-! ### What follows -/

theorem runFrom_ok {m m' : EvalM α} (h : Stricter m m') {c c' : Context} {x : α}
    (hrun : m.runFrom c = (.ok x, c')) : m'.runFrom c = (.ok x, c') := by
  obtain ⟨y, d, hlenient, hstrict | ⟨f, d', hstrict⟩⟩ := h c
  · rw [hlenient, ← hstrict, hrun]
  · rw [hrun] at hstrict
    cases hstrict

theorem runFrom_error {m m' : EvalM α} (h : Stricter m m') {c c' : Context} {e : EvalError}
    (hrun : m.runFrom c = (.error e, c')) : ∃ f, e = .arithmetic f := by
  obtain ⟨y, d, _, hstrict | ⟨f, d', hstrict⟩⟩ := h c
  · rw [hrun] at hstrict
    cases hstrict
  · rw [hrun] at hstrict
    cases hstrict
    exact ⟨f, rfl⟩

/-! ### Steps in turn -/

theorem pure (x : α) : Stricter (Pure.pure x) (Pure.pure x) :=
  fun c => ⟨x, c, rfl, .inl rfl⟩

theorem bind {m m' : EvalM α} {k k' : α → EvalM β} (hm : Stricter m m')
    (hk : ∀ x, Stricter (k x) (k' x)) : Stricter (m >>= k) (m' >>= k') := by
  intro c
  obtain ⟨x, c₁, hlenient, hstrict⟩ := hm c
  obtain ⟨y, c₂, hlenient', hstrict'⟩ := hk x c₁
  refine ⟨y, c₂, by rw [runFrom_bind_ok hlenient, hlenient'], ?_⟩
  rcases hstrict with hstrict | ⟨f, c₃, hstrict⟩
  · rw [runFrom_bind_ok hstrict]
    exact hstrict'
  · right
    exact ⟨f, c₃, by rw [runFrom_bind, hstrict]⟩

theorem update (f : Context → Context) :
    Stricter (modify f : EvalM Unit) (modify f) :=
  fun c => ⟨(), f c, rfl, .inl rfl⟩

theorem read : Stricter (get : EvalM Context) get :=
  fun c => ⟨c, c, rfl, .inl rfl⟩

theorem within {m m' : EvalM α} (items : List Item) (h : Stricter m m') :
    Stricter (EvalM.within items m) (EvalM.within items m') := by
  intro c
  obtain ⟨x, c', hlenient, hstrict⟩ := h { c with items := items, index := none }
  refine ⟨x, c'.leave ⟨c.items, c.index⟩, by rw [runFrom_within, hlenient], ?_⟩
  rcases hstrict with hstrict | ⟨f, c'', hstrict⟩
  · left
    rw [runFrom_within, hstrict]
  · right
    exact ⟨f, c''.leave ⟨c.items, c.index⟩, by rw [runFrom_within, hstrict]⟩

/-! ### Repeats -/

theorem keepNew (items : List Item) :
    Stricter (EvalM.keepNew items) (EvalM.keepNew items) := by
  induction items with
  | nil => exact .pure []
  | cons x items ih =>
    have hnew : Stricter (EvalM.isNew x) (EvalM.isNew x) := fun c => ⟨_, _, rfl, .inl rfl⟩
    exact hnew.bind fun new => ih.bind fun rest => .pure _

theorem distinct (items : List Item) : Stricter (EvalM.distinct items) (EvalM.distinct items) :=
  (update _).bind fun _ => (keepNew items).bind fun kept => (update _).bind fun _ => .pure kept

/-! ### What consults the environment -/

section

variable (env : Env)

theorem emit (e : TraceEvent) :
    Stricter (EvalM.emit (env.withStrict true) e) (EvalM.emit (env.withStrict false) e) := by
  rw [emit_eq, emit_eq]
  exact update (noted env e)

theorem traced {m m' : EvalM (List Item)} (t : Term) (count : Nat) (h : Stricter m m') :
    Stricter (EvalM.traced (env.withStrict true) t count m)
      (EvalM.traced (env.withStrict false) t count m') := by
  have hnoted : ∀ strict e, noted (env.withStrict strict) e = noted env e := fun _ _ => rfl
  intro c
  obtain ⟨items, c', hlenient, hstrict⟩ := h (noted env .enter (noted env (.start t count) c))
  refine ⟨items, noted env (.finish t items.length) (noted env .exit c'), ?_, ?_⟩
  · simp only [runFrom_traced, hnoted, hlenient]
  rcases hstrict with hstrict | ⟨f, c'', hstrict⟩
  · left
    simp only [runFrom_traced, hnoted, hstrict]
  · right
    exact ⟨f, noted env .exit c'', by simp only [runFrom_traced, hnoted, hstrict]⟩

/-- The one place where the two differ. -/
theorem settle (outcome : Except ArithmeticFailure Scalar) :
    Stricter (EvalM.settle (env.withStrict true) outcome)
      (EvalM.settle (env.withStrict false) outcome) := by
  cases outcome with
  | ok v => exact .pure [Item.scalar v]
  | error f =>
    intro c
    obtain ⟨_, c', hrun, _⟩ := emit env (.noResult f) c
    refine ⟨[], c', ?_, .inr ⟨f, c, rfl⟩⟩
    exact runFrom_bind_ok hrun _

end

/-! ### Evaluations -/

def correspondence (env : Env) :
    Correspondence (env.withStrict true) { env.settings with strict := false } env.traced where
  rel := Stricter
  inner := Stricter
  unknown := False
  agrees := ⟨rfl, rfl⟩
  pure := .pure
  bind := .bind
  read _ := .bind .read fun _ => .pure _
  handOut _ := .update _
  distinct := .distinct
  settle := .settle env
  traced t count h := .traced env t count h
  unregistered h := h.elim
  inner_of_rel h := h
  inner_bind := .bind
  inner_index _ := .update _
  within := .within

end Stricter

/-- Terms whose calls are all of built-in functions are evaluated leniently without failing, over any
backend, and strictly to the same result unless an operation fails. -/
theorem selectTerms_stricter (env : Env) {ts : List Term}
    (h : termsResolve Registry.builtins ts) (items : List Item) :
    Stricter (selectTerms (env.withStrict true) .builtins ts items)
      (selectTerms (env.withStrict false) .builtins ts items) :=
  selectTerms_corresponds (Stricter.correspondence env) (Builtin.covers_builtins _) ts (.inr h) items

end EvalM

/-- A lenient evaluation gives a result from every context, over any backend. -/
theorem Term.eval_total {env : Env} (hlenient : env.settings.strict = false) {t : Term}
    (h : t.Resolves Registry.builtins) (items : List Item) (c : Context) :
    ∃ found c', (t.eval env .builtins items).runFrom c = (.ok found, c') := by
  have hself : env.withStrict false = env := hlenient ▸ env.withStrict_self
  have hruns : EvalM.Stricter (t.eval (env.withStrict true) .builtins items)
      (t.eval (env.withStrict false) .builtins items) :=
    t.eval_corresponds (EvalM.Stricter.correspondence env) (Builtin.covers_builtins _) (.inr h) items
  obtain ⟨found, c', hrun, _⟩ := hruns c
  rw [hself] at hrun
  exact ⟨found, c', hrun⟩

end PathQuery
