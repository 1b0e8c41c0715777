import PathQuery.Proofs.Eval.Evaluation
import PathQuery.Proofs.Eval.Correspondence
import PathQuery.Query

/-!
# Evaluations under correspondences

A term corresponds to itself when the functions it calls do: a call of a function that a registry does
not have is excluded, or corresponds to itself.
-/

namespace PathQuery

open EvalM

variable {env : Env} {settings : Settings} {tracing : Bool}
  (R : Correspondence env settings tracing) {registry : Registry}

theorem callFunction_corresponds (hcovers : R.Covers registry) {name : String}
    (h : R.unknown ∨ (registry.find? name).isSome = true) {args args' : List Argument}
    (hargs : R.Arguments args args') (context input : List Item) :
    R.rel (callFunction env registry name args context input)
      (callFunction (env.under settings tracing) registry name args' context input) := by
  unfold callFunction
  cases hf : registry.find? name with
  | some f => exact hcovers f (Registry.mem_of_find? hf) name args args' context input hargs
  | none =>
    rw [hf] at h
    exact R.unregistered (h.resolve_right Bool.false_ne_true) name

/-- A term is evaluated inside a trace of its own, and what is traced corresponds. -/
def Term.Traces (registry : Registry) (t : Term) (items : List Item) : Prop :=
  ∃ body body', t.eval env registry items = traced env t items.length body ∧
    t.eval (env.under settings tracing) registry items =
      traced (env.under settings tracing) t items.length body' ∧ R.rel body body'

theorem Term.Traces.rel {R : Correspondence env settings tracing} {t : Term} {items : List Item}
    (h : t.Traces R registry items) :
    R.rel (t.eval env registry items) (t.eval (env.under settings tracing) registry items) := by
  obtain ⟨body, body', heval, heval', hbody⟩ := h
  rw [heval, heval']
  exact R.traced t items.length hbody

mutual

theorem Term.eval_traces (hcovers : R.Covers registry) (t : Term)
    (h : R.unknown ∨ t.Resolves registry) (items : List Item) : t.Traces R registry items := by
  unfold Term.Traces
  cases t with
  | literal v =>
    rw [Term.eval, Term.eval]
    exact ⟨_, _, rfl, rfl, R.pure _⟩
  | path start segments =>
    rw [Term.eval, Term.eval]
    refine ⟨_, _, rfl, rfl, ?_⟩
    exact R.bind (start.eval_corresponds hcovers (h.imp_right (·.1)) items) fun begin_ =>
      evalSegments_corresponds hcovers segments (h.imp_right (·.2)) begin_
  | call name args =>
    rw [Term.eval, Term.eval]
    refine ⟨_, _, rfl, rfl, ?_⟩
    exact callFunction_corresponds R hcovers (h.imp_right (·.1))
      (evalArgs_corresponds hcovers args (h.imp_right (·.2))) items items
  | list ts =>
    rw [Term.eval, Term.eval]
    exact ⟨_, _, rfl, rfl, R.joined ((evalArgs_corresponds hcovers ts h).against items)⟩
  | unary op t =>
    have ht := fun x => (t.eval_traces hcovers h [x]).rel
    cases op with
    | not =>
      rw [Term.eval, Term.eval]
      exact ⟨_, _, rfl, rfl, R.collect fun x => R.bind (ht x) fun r => R.pure _⟩
    | neg =>
      rw [Term.eval, Term.eval]
      refine ⟨_, _, rfl, rfl, R.collect fun x => R.bind (ht x) fun r => ?_⟩
      cases r with
      | nil => exact R.pure []
      | cons a r => exact R.settle (env.backend.negate a)
  | ternary a b c =>
    rw [Term.eval, Term.eval]
    refine ⟨_, _, rfl, rfl, R.collect fun x => ?_⟩
    refine R.bind (a.eval_traces hcovers (h.imp_right (·.1)) [x]).rel fun r => ?_
    exact R.branch r (b.eval_traces hcovers (h.imp_right (·.2.1)) [x]).rel
      (c.eval_traces hcovers (h.imp_right (·.2.2)) [x]).rel
  | binary op l r =>
    have hl := fun x => (l.eval_traces hcovers (h.imp_right (·.1)) [x]).rel
    have hr := fun x => (r.eval_traces hcovers (h.imp_right (·.2)) [x]).rel
    cases op with
    | and =>
      rw [Term.eval, Term.eval]
      refine ⟨_, _, rfl, rfl, R.collect fun x => R.bind (hl x) fun found => ?_⟩
      exact R.branch found (R.bind (hr x) fun r => R.pure _) (R.pure _)
    | or =>
      rw [Term.eval, Term.eval]
      refine ⟨_, _, rfl, rfl, R.collect fun x => R.bind (hl x) fun found => ?_⟩
      exact R.branch found (R.pure _) (R.bind (hr x) fun r => R.pure _)
    | _ =>
      rw [Term.eval, Term.eval]
      · exact ⟨_, _, rfl, rfl, R.collect fun x => R.bind (hl x) fun found =>
          R.bind (hr x) fun _ => R.applyBinary _ _ _⟩
      all_goals
        intro hop
        cases hop

theorem Start.eval_corresponds (hcovers : R.Covers registry) (s : Start)
    (h : R.unknown ∨ s.Resolves registry) (items : List Item) :
    R.rel (s.eval env registry items) (s.eval (env.under settings tracing) registry items) := by
  cases s with
  | term t =>
    rw [Start.eval, Start.eval]
    exact (t.eval_traces hcovers h items).rel
  | root | current | context =>
    rw [Start.eval, Start.eval]
    exact R.pure _

theorem Segment.step_corresponds (hcovers : R.Covers registry) (s : Segment)
    (h : R.unknown ∨ s.Resolves registry) (items : List Item) :
    R.rel (s.step env registry items) (s.step (env.under settings tracing) registry items) := by
  -- whatever a step finds, it keeps each node once
  have hdistinct : ∀ {m m' : EvalM (List Item)}, R.rel m m' →
      R.rel (m >>= distinct) (m' >>= distinct) := fun hm => R.bind hm fun found => R.distinct found
  cases s with
  | call name args =>
    rw [Segment.step, Segment.step]
    exact hdistinct (callFunction_corresponds R hcovers (h.imp_right (·.1))
      (evalArgs_corresponds hcovers args (h.imp_right (·.2))) items items)
  | filter test =>
    rw [Segment.step, Segment.step]
    exact hdistinct (R.filterAll (fun x => (test.eval_traces hcovers h [x]).rel) false items)
  | predicate test =>
    rw [Segment.step, Segment.step]
    exact hdistinct (R.filterAll (fun x => (test.eval_traces hcovers h [x]).rel) true items)
  | recursive inner =>
    rw [Segment.step, Segment.step]
    exact hdistinct (R.bind (R.descend true items) fun nodes => inner.step_corresponds hcovers h nodes)
  | recursiveWildcard =>
    rw [Segment.step, Segment.step]
    exact hdistinct (R.descend false items)
  | _ =>
    rw [Segment.step, Segment.step]
    · exact hdistinct (R.selectAll _ items)
    all_goals
      intros
      rename_i hs
      cases hs

theorem evalSegments_corresponds (hcovers : R.Covers registry) (ss : List Segment)
    (h : R.unknown ∨ segmentsResolve registry ss) (items : List Item) :
    R.rel (evalSegments env registry ss items)
      (evalSegments (env.under settings tracing) registry ss items) := by
  cases ss with
  | nil =>
    rw [evalSegments, evalSegments]
    exact R.pure items
  | cons s ss =>
    rw [evalSegments, evalSegments]
    split
    · exact R.pure items
    · exact R.bind (s.step_corresponds hcovers (h.imp_right (·.1)) items) fun next =>
        evalSegments_corresponds hcovers ss (h.imp_right (·.2)) next

theorem evalArgs_corresponds (hcovers : R.Covers registry) (ts : List Term)
    (h : R.unknown ∨ termsResolve registry ts) :
    R.Arguments (evalArgs env registry ts) (evalArgs (env.under settings tracing) registry ts) := by
  cases ts with
  | nil =>
    rw [evalArgs, evalArgs]
    exact .nil
  | cons t ts =>
    rw [evalArgs, evalArgs]
    exact .cons ⟨rfl, fun here => (t.eval_traces hcovers (h.imp_right (·.1)) here).rel⟩
      (evalArgs_corresponds hcovers ts (h.imp_right (·.2)))

end

theorem Term.eval_corresponds (hcovers : R.Covers registry) (t : Term)
    (h : R.unknown ∨ t.Resolves registry) (items : List Item) :
    R.rel (t.eval env registry items) (t.eval (env.under settings tracing) registry items) :=
  (t.eval_traces R hcovers h items).rel

theorem selectTerms_corresponds (hcovers : R.Covers registry) (ts : List Term)
    (h : R.unknown ∨ termsResolve registry ts) (items : List Item) :
    R.rel (selectTerms env registry ts items)
      (selectTerms (env.under settings tracing) registry ts items) :=
  R.bind (R.joined ((evalArgs_corresponds R hcovers ts h).against items)) fun found => R.distinct found

end PathQuery
