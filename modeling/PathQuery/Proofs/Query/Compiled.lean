import PathQuery.Query
import PathQuery.Proofs.Eval.Evaluation
import PathQuery.Proofs.Expression.Produced

/-!
# Compiled queries

Compiling parses the text and keeps the configuration. The parser lets no call through that the
registry cannot answer. So a query that is compiled with the built-in functions calls nothing else, and
evaluations of it over JSON documents are steady.
-/

namespace PathQuery

/-! ### Parsed terms resolve -/

theorem Registry.isSome_of_allows {registry : Registry} {name : String} {args : List Term}
    (h : registry.signatures.Allows name args) : (registry.find? name).isSome = true := by
  obtain ⟨verify, hverify, _⟩ := h
  obtain ⟨f, hf, _⟩ := Option.map_eq_some_iff.mp hverify
  exact Option.isSome_iff_exists.mpr ⟨f, hf⟩

section

variable {registry : Registry}

mutual

theorem Term.WellFormed.resolves {t : Term} (h : t.WellFormed registry.signatures) :
    t.Resolves registry := by
  cases t with
  | literal v => exact trivial
  | path start segments => exact ⟨h.1.resolves, segmentsResolve_of_wellFormed h.2.1⟩
  | call name args => exact ⟨Registry.isSome_of_allows h.1, termsResolve_of_wellFormed h.2⟩
  | unary op t => exact h.1.resolves
  | binary op l r => exact ⟨h.1.resolves, h.2.resolves⟩
  | ternary a b c => exact ⟨h.1.resolves, h.2.1.resolves, h.2.2.resolves⟩
  | list ts => exact termsResolve_of_wellFormed h.2

theorem Start.WellFormed.resolves {s : Start} (h : s.WellFormed registry.signatures) :
    s.Resolves registry := by
  cases s with
  | term t => exact h.1.resolves
  | _ => exact trivial

theorem Segment.WellFormed.resolves {s : Segment} (h : s.WellFormed registry.signatures) :
    s.Resolves registry := by
  cases s with
  | recursive inner => exact h.1.resolves
  | filter t => exact Term.WellFormed.resolves h
  | predicate t => exact h.1.resolves
  | call name args => exact ⟨Registry.isSome_of_allows h.1, termsResolve_of_wellFormed h.2⟩
  | _ => exact trivial

theorem segmentsResolve_of_wellFormed {ss : List Segment}
    (h : segmentsWellFormed registry.signatures ss) : segmentsResolve registry ss := by
  cases ss with
  | nil => exact trivial
  | cons s ss => exact ⟨h.1.resolves, segmentsResolve_of_wellFormed h.2⟩

theorem termsResolve_of_wellFormed {ts : List Term}
    (h : termsWellFormed registry.signatures ts) : termsResolve registry ts := by
  cases ts with
  | nil => exact trivial
  | cons t ts => exact ⟨h.1.resolves, termsResolve_of_wellFormed h.2⟩

end

end

/-! ### Compiling and running -/

/-- What terms select under steady functions does not depend on what the context has recorded before. -/
theorem selectTerms_steady {d : Json.Document} {env : Env} {registry : Registry}
    (henv : env.backend = Json.backend d) (hsteady : registry.IsSteady env d) (ts : List Term)
    (items : List Item) : EvalM.Steady d (selectTerms env registry ts items) items id :=
  (EvalM.Steady.joined (Argument.steady_against (evalArgs_steady henv hsteady ts))).bind fun found =>
    (EvalM.Gives.distinct found).steady.mono (List.subset_append_right _ _)

namespace Query

theorem compile_eq_ok_iff {config : Configuration} {source : String} {q : Query} :
    compile config source = .ok q ↔
      q.source = source ∧ q.config = config ∧
        parse config.functions.signatures source = .ok q.terms := by
  simp only [compile, bind, Except.bind, pure, Except.pure]
  cases parse config.functions.signatures source with
  | error e => simp
  | ok ts =>
    obtain ⟨source', terms, config'⟩ := q
    simp only [Except.ok.injEq, Query.mk.injEq]
    constructor
    · rintro ⟨rfl, rfl, rfl⟩
      exact ⟨rfl, rfl, rfl⟩
    · rintro ⟨rfl, rfl, rfl⟩
      exact ⟨rfl, rfl, rfl⟩

/-- What a query with the built-in functions comes to on a JSON document does not depend on what the
context has recorded before. -/
theorem select_steady_of_compile {config : Configuration} {source : String} {q : Query}
    (h : compile config source = .ok q) (hfunctions : config.functions = Registry.builtins)
    {d : Json.Document} {env : Env} (henv : env.backend = Json.backend d) (items : List Item) :
    EvalM.Steady d (q.select env items) items id := by
  obtain ⟨_, hconfig, _⟩ := compile_eq_ok_iff.mp h
  rw [select, hconfig, hfunctions]
  exact selectTerms_steady henv (Registry.builtins_isSteady henv) q.terms items

end Query
end PathQuery
