import PathQuery.Eval.Engine
import PathQuery.Proofs.Eval.Steady

/-!
# Correspondences of computations

Two evaluations, each under settings of its own and with or without a trace, can be compared without
looking at terms. A `Correspondence` relates computations, and says of each thing that an evaluation is
made of that it corresponds to its counterpart. From that, whole evaluations correspond. A property of
one computation is a correspondence that does not look at the other one.

Tests of a filter run inside the list that it puts in force and move the index in it. So a
correspondence has a second relation, for what runs inside a list.
-/

namespace PathQuery

def Env.withSettings (env : Env) (settings : Settings) : Env := { env with settings := settings }

/-- The same environment with other settings, traced or not. -/
def Env.under (env : Env) (settings : Settings) (tracing : Bool) : Env :=
  { env with settings := settings, traced := tracing }

/-- What functions consult of the settings of an environment is the same in other settings. -/
structure Env.Agrees (env : Env) (settings : Settings) : Prop where
  tolerance : settings.tolerance = env.settings.tolerance
  locale : settings.locale = env.settings.locale

theorem Env.agrees_settings (env : Env) : env.Agrees env.settings := ⟨rfl, rfl⟩

/-- What is read off a context depends on the index and the links alone. -/
def Context.Locates {α : Type} (f : Context → α) : Prop :=
  ∀ c c' : Context, c.index = c'.index → c.links = c'.links → f c = f c'

open EvalM

/-- A relation between computations under an environment and under the same one with other settings,
traced or not, which everything that evaluations are made of respects. -/
structure Correspondence (env : Env) (settings : Settings) (tracing : Bool) where
  /-- Two computations correspond. -/
  rel : ∀ {α : Type}, EvalM α → EvalM α → Prop
  /-- Two computations correspond inside a list that is put in force. -/
  inner : ∀ {α : Type}, EvalM α → EvalM α → Prop
  /-- Calls of unknown functions correspond. -/
  unknown : Prop
  agrees : env.Agrees settings
  pure : ∀ {α : Type} (x : α), rel (Pure.pure x) (Pure.pure x)
  bind : ∀ {α β : Type} {m m' : EvalM α} {k k' : α → EvalM β}, rel m m' → (∀ x, rel (k x) (k' x)) →
    rel (m >>= k) (m' >>= k')
  read : ∀ {α : Type} {f : Context → α}, Context.Locates f →
    rel (do let c ← get; return f c) (do let c ← get; return f c)
  handOut : ∀ found : List (Address × List (Address × Place)),
    rel (modify fun c => found.foldl (fun c f => c.record f.1 f.2) c)
      (modify fun c => found.foldl (fun c f => c.record f.1 f.2) c)
  distinct : ∀ items, rel (EvalM.distinct items) (EvalM.distinct items)
  settle : ∀ outcome,
    rel (EvalM.settle env outcome) (EvalM.settle (env.under settings tracing) outcome)
  traced : ∀ {m m' : EvalM (List Item)} (t : Term) (count : Nat), rel m m' →
    rel (EvalM.traced env t count m) (EvalM.traced (env.under settings tracing) t count m')
  unregistered : unknown → ∀ name,
    rel (throw (.unregistered name) : EvalM (List Item)) (throw (.unregistered name))
  inner_of_rel : ∀ {α : Type} {m m' : EvalM α}, rel m m' → inner m m'
  inner_bind : ∀ {α β : Type} {m m' : EvalM α} {k k' : α → EvalM β}, inner m m' →
    (∀ x, inner (k x) (k' x)) → inner (m >>= k) (m' >>= k')
  inner_index : ∀ i : Nat, inner (modify fun c => { c with index := some i })
    (modify fun c => { c with index := some i })
  within : ∀ {α : Type} {m m' : EvalM α} (items : List Item), inner m m' →
    rel (EvalM.within items m) (EvalM.within items m')

namespace Correspondence

variable {env : Env} {settings : Settings} {tracing : Bool} (R : Correspondence env settings tracing)

/-! ### Lists of computations -/

theorem collect {α β : Type} {xs : List α} {body body' : α → EvalM (List β)}
    (h : ∀ x, R.rel (body x) (body' x)) :
    R.rel (EvalM.collect xs body) (EvalM.collect xs body') := by
  induction xs with
  | nil => exact R.pure []
  | cons x xs ih => exact R.bind (h x) fun here => R.bind ih fun rest => R.pure (here ++ rest)

theorem joined {α : Type} {ms ms' : List (EvalM (List α))}
    (h : List.Forall₂ (fun m m' => R.rel m m') ms ms') :
    R.rel (EvalM.joined ms) (EvalM.joined ms') := by
  induction h with
  | nil => exact R.pure []
  | cons hm _ ih => exact R.bind hm fun here => R.bind ih fun rest => R.pure (here ++ rest)

/-! ### Steps without terms -/

theorem children (a : Address) (key : Key) :
    R.rel (EvalM.children env a key) (EvalM.children env a key) :=
  R.bind (R.handOut [(a, env.backend.get a key)]) fun _ => R.pure _

theorem select (segment : Segment) (a : Address) :
    R.rel (Step.select env segment a) (Step.select env segment a) := by
  unfold Step.select
  split
  · exact R.children a _
  · exact R.children a _
  · exact R.children a _
  · split
    · exact R.children a _
    · exact R.pure []
  · split
    · exact R.bind (R.children a _) fun _ => R.pure _
    · exact R.pure []
  · exact R.pure []

theorem selectAll (segment : Segment) (items : List Item) :
    R.rel (Step.selectAll env segment items)
      (Step.selectAll (env.under settings tracing) segment items) :=
  R.collect fun a => R.bind (R.select segment a) fun _ => R.pure _

theorem candidates (item : Item) :
    R.rel (Step.candidates env item) (Step.candidates env item) := by
  unfold Step.candidates
  split
  · split
    · exact R.bind (R.children _ _) fun _ => R.pure _
    · exact R.pure _
  · exact R.pure _

theorem descend (includeSelf : Bool) (items : List Item) :
    R.rel (Step.descend env includeSelf items)
      (Step.descend (env.under settings tracing) includeSelf items) := by
  let starts := (items.filterMap Item.node?).map fun a => (⟨a, true⟩ : Visit)
  let visits := env.backend.walk ∅ starts
  have hvisits := R.handOut (visits.map fun v => (v.node, env.backend.get v.node .wildcard))
  simp only [List.foldl_map] at hvisits
  exact R.bind hvisits fun _ => R.pure _

/-! ### Filters -/

section

variable {test test' : List Item → EvalM (List Item)}

theorem keepFrom (h : ∀ x, R.rel (test [x]) (test' [x])) (positional : Bool) (length i : Nat)
    (items : List Item) :
    R.inner (Step.keepFrom env positional length test i items)
      (Step.keepFrom (env.under settings tracing) positional length test' i items) := by
  induction items generalizing i with
  | nil => exact R.inner_of_rel (R.pure [])
  | cons x items ih =>
    refine R.inner_bind (R.inner_index i) fun _ => ?_
    refine R.inner_bind (R.inner_of_rel (h x)) fun result => ?_
    exact R.inner_bind (ih (i + 1)) fun rest => R.inner_of_rel (R.pure _)

theorem filterAll (h : ∀ x, R.rel (test [x]) (test' [x])) (positional : Bool)
    (items : List Item) :
    R.rel (Step.filterAll env positional test items)
      (Step.filterAll (env.under settings tracing) positional test' items) :=
  R.collect fun x => R.bind (R.candidates x) fun found =>
    R.within found (R.keepFrom h positional found.length 0 found)

end

/-! ### Operators on results -/

theorem applyBinary (op : BinaryOp) (lhs rhs : Option Item) :
    R.rel (PathQuery.applyBinary env op lhs rhs)
      (PathQuery.applyBinary (env.under settings tracing) op lhs rhs) := by
  unfold PathQuery.applyBinary
  have htolerance : (env.under settings tracing).settings.tolerance = env.settings.tolerance :=
    R.agrees.tolerance
  cases op.isComparison with
  | true =>
    rw [htolerance]
    cases lhs with
    | none => exact R.pure _
    | some l =>
      cases rhs with
      | none => exact R.pure _
      | some r => exact R.pure _
  | false =>
    cases lhs with
    | none => exact R.pure []
    | some l =>
      cases rhs with
      | none => exact R.pure []
      | some r => exact R.settle (env.backend.arithmetic op l r)

/-- What is tested does not depend on settings, so both go on with the same branch. -/
theorem branch {α : Type} (tested : List Item) {yes yes' no no' : EvalM α}
    (hyes : R.rel yes yes') (hno : R.rel no no') :
    R.rel (if firstTruth env.backend tested then yes else no)
      (if firstTruth (env.under settings tracing).backend tested then yes' else no') := by
  change R.rel (if firstTruth env.backend tested then yes else no)
    (if firstTruth env.backend tested then yes' else no')
  split
  · exact hyes
  · exact hno

end Correspondence

/-! ### Functions -/

section

variable {env : Env} {settings : Settings} {tracing : Bool}

/-- Arguments of the same terms, whose evaluations against the same items correspond. -/
def Correspondence.Arguments (R : Correspondence env settings tracing) :
    List Argument → List Argument → Prop :=
  List.Forall₂ fun a a' => a.term = a'.term ∧ ∀ here, R.rel (a.eval here) (a'.eval here)

theorem Correspondence.Arguments.against {R : Correspondence env settings tracing}
    {args args' : List Argument} (h : R.Arguments args args') (items : List Item) :
    List.Forall₂ (fun m m' => R.rel m m') (Argument.against args items)
      (Argument.against args' items) := by
  induction h with
  | nil => exact .nil
  | cons ha _ ih => exact .cons (ha.2 items) ih

/-- A function that gets corresponding arguments does corresponding things. -/
def Function.Corresponds (f : Function) (R : Correspondence env settings tracing) : Prop :=
  ∀ (name : String) (args args' : List Argument) (context input : List Item), R.Arguments args args' →
    R.rel (f.apply env name args context input)
      (f.apply (env.under settings tracing) name args' context input)

def Correspondence.Covers (R : Correspondence env settings tracing) (registry : Registry) : Prop :=
  ∀ f ∈ registry.functions, f.Corresponds R

end

end PathQuery
