import PathQuery.Proofs.Eval.Logs
import PathQuery.Proofs.Eval.Tracing

/-!
# Queries that are logged

A query comes to the same with and without a trace, and what it logs is well nested with every outcome.
Functions take part in this: one that logs nothing itself, as no built-in function does, passes on what
its arguments do.
-/

namespace PathQuery

open EvalM

/-- The function logs nothing itself. With arguments that do the same traced or not, it does the same
traced or not, and with arguments whose logs are orderly its own log is. -/
structure Function.IsQuiet (f : Function) : Prop where
  alike : ∀ (env : Env) (tracing : Bool), f.Corresponds (Alike.correspondence env tracing)
  logs : ∀ (env : Env) (htraced : env.traced = true), f.Corresponds (Logs.correspondence env htraced)

theorem Builtin.isQuiet {f : Function} (hf : f ∈ Registry.builtins.functions) : f.IsQuiet where
  alike _ _ := covers_builtins _ f hf
  logs _ _ := covers_builtins _ f hf

namespace Query

def withTracing (q : Query) (tracing : Bool) : Query :=
  { q with config := { q.config with traced := tracing } }

def log (q : Query) (root : Root) : List TraceEvent :=
  match q.config.open? root with
  | .ok env => Trace.logged (q.run env).2.trace.reverse
  | .error _ => []

theorem open?_withTracing (q : Query) (tracing : Bool) (root : Root) :
    (q.withTracing tracing).config.open? root =
      (q.config.open? root).map fun env => { env with traced := tracing } := by
  simp only [Configuration.open?, withTracing]
  cases openRoot? q.config.openers root with
  | none => rfl
  | some b => rfl

theorem map_items_evaluate (q : Query) (root : Root) :
    (q.evaluate root).map Matches.items = (q.config.open? root).bind fun env => (q.run env).1 := by
  unfold evaluate
  cases q.config.open? root with
  | error e => rfl
  | ok env =>
    dsimp only [bind, Except.bind]
    cases q.run env with
    | mk outcome c => cases outcome <;> rfl

section

variable (q : Query) (hquiet : ∀ f ∈ q.config.functions.functions, f.IsQuiet)

include hquiet

theorem run_tracing (env : Env) (tracing : Bool) :
    (q.run { env with traced := tracing }).1 = (q.run env).1 := by
  have hcovers : (Alike.correspondence env tracing).Covers q.config.functions :=
    fun f hf => (hquiet f hf).alike env tracing
  have hruns := selectTerms_corresponds (Alike.correspondence env tracing) hcovers q.terms
    (.inl trivial) [.node []]
  exact (hruns .initial .initial rfl).1.symm

theorem evaluate_withTracing (root : Root) (tracing : Bool) :
    ((q.withTracing tracing).evaluate root).map Matches.items =
      (q.evaluate root).map Matches.items := by
  rw [map_items_evaluate, map_items_evaluate, open?_withTracing]
  cases q.config.open? root with
  | error e => rfl
  | ok env => exact q.run_tracing hquiet env tracing

theorem orderly_log (root : Root) : Trace.Orderly ((q.withTracing true).log root) := by
  rw [log, open?_withTracing]
  cases q.config.open? root with
  | error e => exact .nil
  | ok env =>
    have hcovers : (Logs.correspondence { env with traced := true } rfl).Covers q.config.functions :=
      fun f hf => (hquiet f hf).logs _ rfl
    obtain ⟨es, hlog, hes⟩ := selectTerms_logs rfl hcovers q.terms [.node []] .initial
    change Trace.logged (q.run { env with traced := true }).2.trace.reverse = [] ++ es at hlog
    change Trace.Orderly (Trace.logged (q.run { env with traced := true }).2.trace.reverse)
    rw [hlog]
    exact hes

/-- A trace changes neither the matches of a query nor its failure. Whatever a query comes to, its log is
balanced and no term stands in it without a level of its own; and each term that is evaluated logs its
start right before that level and, if it does not fail, its finish right after it. -/
theorem logging (root : Root) :
    ((q.withTracing true).evaluate root).map Matches.items =
        ((q.withTracing false).evaluate root).map Matches.items ∧
      Trace.Orderly ((q.withTracing true).log root) ∧
        ∀ (env : Env) (t : Term) (items : List Item) (c : Context), env.traced = true →
          let ran := (t.eval env q.config.functions items).runFrom c
          ∃ inner, Trace.Orderly inner ∧
            Trace.logged ran.2.trace.reverse = Trace.logged c.trace.reverse ++
              .start t items.length :: .enter :: (inner ++ .exit :: Trace.ending t ran.1) := by
  refine ⟨?_, q.orderly_log hquiet root, fun env t items c htraced => ?_⟩
  · rw [q.evaluate_withTracing hquiet, q.evaluate_withTracing hquiet]
  · exact logged_eval htraced (fun f hf => (hquiet f hf).logs env htraced) t items c

end

/-- A division by zero fails inside a sum, and both terms leave their levels. -/
theorem logging_failure :
    let zero : Term := .literal (.int 0)
    let quotient : Term := .binary .div zero zero
    let sum : Term := .binary .add quotient zero
    let q : Query := ⟨"0 / 0 + 0", [sum], Configuration.default.withStrict true⟩
    let root : Root := .json ⟨.null, trivial⟩
    (q.withTracing true).log root =
        [.start sum 1, .enter, .start quotient 1, .enter, .start zero 1, .enter, .exit, .finish zero 1,
          .start zero 1, .enter, .exit, .finish zero 1, .exit, .exit] ∧
      Trace.Orderly ((q.withTracing true).log root) ∧
        ((q.withTracing true).evaluate root).map Matches.items =
          ((q.withTracing false).evaluate root).map Matches.items := by
  intro zero quotient sum q root
  obtain ⟨hsame, horderly, _⟩ := logging q (fun _ => Builtin.isQuiet) root
  exact ⟨rfl, horderly, hsame⟩

end Query
end PathQuery
