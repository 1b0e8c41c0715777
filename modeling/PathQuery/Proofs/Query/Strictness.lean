import PathQuery.Proofs.Eval.Strictness
import PathQuery.Proofs.Expression.Sameness
import PathQuery.Proofs.Query.Compiled

/-!
# Strict queries

A query compiled with the built-in functions fails on a JSON document only if it is strict, and then
only with the failure of an operation. A strict query that does not fail has the matches of the
lenient one.
-/

namespace PathQuery

open EvalM

theorem Configuration.open?_of_opens {config : Configuration} {root : Root} {b : Backend}
    {opener : Opener} (hmem : opener ∈ config.openers) (hopens : opener root = some b) :
    ∃ b', config.open? root = .ok (config.env b') := by
  cases hfound : openRoot? config.openers root with
  | none =>
    have hnone := List.findSome?_eq_none_iff.mp hfound opener hmem
    rw [hopens] at hnone
    cases hnone
  | some b' => exact ⟨b', by rw [Configuration.open?, hfound]⟩

theorem Configuration.open?_withStrict {config : Configuration} {strict : Bool} {root : Root}
    {env : Env} (h : (config.withStrict strict).open? root = .ok env) (strict' : Bool) :
    env.withStrict strict = env ∧
      (config.withStrict strict').open? root = .ok (env.withStrict strict') := by
  simp only [Configuration.open?, Configuration.withStrict] at h ⊢
  split at h
  · cases h
    exact ⟨rfl, rfl⟩
  · cases h

namespace Query

/-! ### Running -/

theorem evaluate_eq {q : Query} {root : Root} {env : Env} (hopen : q.config.open? root = .ok env) :
    q.evaluate root =
      match q.run env with
      | (.ok items, c) => .ok ⟨items, env, c⟩
      | (.error e, _) => .error e := by
  rw [evaluate, hopen]
  rfl

theorem evaluate_of_run_ok {q : Query} {root : Root} {env : Env} {items : List Item} {c : Context}
    (hopen : q.config.open? root = .ok env) (hrun : q.run env = (.ok items, c)) :
    q.evaluate root = .ok ⟨items, env, c⟩ := by
  rw [evaluate_eq hopen, hrun]

theorem evaluate_of_run_error {q : Query} {root : Root} {env : Env} {e : EvalError} {c : Context}
    (hopen : q.config.open? root = .ok env) (hrun : q.run env = (.error e, c)) :
    q.evaluate root = .error e := by
  rw [evaluate_eq hopen, hrun]

theorem evaluate_of_open_error {q : Query} {root : Root} {e : EvalError}
    (hopen : q.config.open? root = .error e) : q.evaluate root = .error e := by
  rw [evaluate, hopen]
  rfl

section

variable {config : Configuration} {source : String} {q : Query}

theorem select_stricter_of_compile (hfunctions : config.functions = .builtins)
    (hq : compile config source = .ok q) (env : Env) (items : List Item) :
    Stricter (q.select (env.withStrict true) items) (q.select (env.withStrict false) items) := by
  obtain ⟨_, hconfig, hparse⟩ := compile_eq_ok_iff.mp hq
  rw [hfunctions] at hparse
  simp only [select, hconfig, hfunctions]
  exact selectTerms_stricter env (termsResolve_of_wellFormed (parse_wellFormed hparse).2) items

/-! ### Failures -/

/-- What compiles does not fail on a JSON document later, unless it is strict and an operation
fails. Openers are only ever added to a configuration, so the one of JSON documents is among them. -/
theorem evaluate_of_compile (hfunctions : config.functions = .builtins)
    (hopeners : Opener.json ∈ config.openers) (hq : compile config source = .ok q)
    (d : Json.Document) :
    (config.settings.strict = false → ∃ m, q.evaluate (.json d) = .ok m) ∧
      ∀ e, q.evaluate (.json d) = .error e →
        config.settings.strict = true ∧ ∃ f, e = .arithmetic f := by
  obtain ⟨_, hconfig, _⟩ := compile_eq_ok_iff.mp hq
  obtain ⟨b, hopen⟩ := Configuration.open?_of_opens hopeners (rfl : Opener.json (.json d) = _)
  rw [← hconfig] at hopen
  have hruns := select_stricter_of_compile hfunctions hq (q.config.env b) [.node []]
  have hself : (q.config.env b).withStrict config.settings.strict = q.config.env b := by
    rw [← hconfig]
    exact Env.withStrict_self _
  have hrun_eq : q.run (q.config.env b) = (q.select (q.config.env b) [.node []]).runFrom .initial :=
    rfl
  cases hstrict : config.settings.strict with
  | false =>
    rw [hstrict] at hself
    obtain ⟨items, c, hrun, _⟩ := hruns .initial
    rw [hself, ← hrun_eq] at hrun
    have hok := evaluate_of_run_ok hopen hrun
    refine ⟨fun _ => ⟨_, hok⟩, fun e he => ?_⟩
    rw [hok] at he
    cases he
  | true =>
    rw [hstrict] at hself
    refine ⟨fun hlenient => absurd hlenient (by decide), fun e he => ⟨rfl, ?_⟩⟩
    cases hrun : q.run (q.config.env b) with
    | mk outcome c =>
      cases outcome with
      | ok items =>
        rw [evaluate_of_run_ok hopen hrun] at he
        cases he
      | error e' =>
        rw [evaluate_of_run_error hopen hrun] at he
        cases he
        rw [hrun_eq, ← hself] at hrun
        exact hruns.runFrom_error hrun

end

/-- A division by zero is no result of a lenient query and the error of a strict one. -/
theorem evaluate_of_compile_division :
    let d : Json.Document := ⟨.array [.number (.int 4)], by simp [Json.Ordered, Json.OrderedItems]⟩
    ∃ p q : Query, compile (Configuration.default.withStrict true) "$[0]/0" = .ok p ∧
      compile .default "$[0]/0" = .ok q ∧ (∃ f, p.evaluate (.json d) = .error (.arithmetic f)) ∧
        ∃ m, q.evaluate (.json d) = .ok m := by
  intro d
  let ts : List Term := [.binary .div (.path .root [.index 0]) (.literal (.int 0))]
  have hparse : parse Registry.builtins.signatures "$[0]/0" = .ok ts := by decide +kernel
  let p : Query := ⟨"$[0]/0", ts, Configuration.default.withStrict true⟩
  let q : Query := ⟨"$[0]/0", ts, .default⟩
  have hp : compile (Configuration.default.withStrict true) "$[0]/0" = .ok p :=
    compile_eq_ok_iff.mpr ⟨rfl, rfl, hparse⟩
  have hq : compile .default "$[0]/0" = .ok q := compile_eq_ok_iff.mpr ⟨rfl, rfl, hparse⟩
  have hjson : Opener.json ∈ Configuration.default.openers := List.mem_singleton.mpr rfl
  have hjson' : Opener.json ∈ (Configuration.default.withStrict true).openers := hjson
  refine ⟨p, q, hp, hq, ?_, (evaluate_of_compile rfl hjson hq d).1 rfl⟩
  obtain ⟨e, he⟩ : ∃ e, p.evaluate (.json d) = .error e := ⟨_, rfl⟩
  obtain ⟨_, f, rfl⟩ := (evaluate_of_compile rfl hjson' hp d).2 e he
  exact ⟨f, he⟩

/-! ### Results -/

section

variable {config : Configuration} {source : String} {p : Query}

/-- Strictness only turns missing results into errors: the matches of a strict query are those of
the lenient one, the items in the same order. -/
theorem evaluate_lenient_of_strict (hfunctions : config.functions = .builtins)
    (hp : compile (config.withStrict true) source = .ok p) {root : Root} {m : Matches}
    (h : p.evaluate root = .ok m) :
    ∃ q, compile (config.withStrict false) source = .ok q ∧ q.terms = p.terms ∧
      q.evaluate root = .ok { m with env := m.env.withStrict false } := by
  obtain ⟨_, hconfig, hparse⟩ := compile_eq_ok_iff.mp hp
  let q : Query := ⟨source, p.terms, config.withStrict false⟩
  refine ⟨q, compile_eq_ok_iff.mpr ⟨rfl, rfl, hparse⟩, rfl, ?_⟩
  cases hopen : p.config.open? root with
  | error e =>
    rw [evaluate_of_open_error hopen] at h
    cases h
  | ok env =>
    have hruns : Stricter (p.select (env.withStrict true) [.node []])
        (p.select (env.withStrict false) [.node []]) := by
      refine select_stricter_of_compile ?_ hp env [.node []]
      exact hfunctions
    obtain ⟨hself, hopen'⟩ := Configuration.open?_withStrict (hconfig ▸ hopen) false
    cases hrun : p.run env with
    | mk outcome c =>
      cases outcome with
      | error e =>
        rw [evaluate_of_run_error hopen hrun] at h
        cases h
      | ok items =>
        rw [evaluate_of_run_ok hopen hrun] at h
        cases h
        -- the lenient query selects what the strict one does, only under the other flag
        have hselect : p.select (env.withStrict true) [.node []] = p.select env [.node []] := by
          rw [hself]
        have hlenient : q.select (env.withStrict false) [.node []] =
            p.select (env.withStrict false) [.node []] := by
          simp only [select, hconfig]
          rfl
        refine evaluate_of_run_ok hopen' ?_
        change (q.select (env.withStrict false) [.node []]).runFrom .initial = _
        rw [hlenient]
        refine hruns.runFrom_ok ?_
        rw [hselect]
        exact hrun

end

/-- A strict division that succeeds has the same quotient without the flag. -/
theorem evaluate_lenient_of_strict_division :
    let d : Json.Document := ⟨.array [.number (.int 4)], by simp [Json.Ordered, Json.OrderedItems]⟩
    ∃ (p q : Query) (m m' : Matches),
      compile (Configuration.default.withStrict true) "$[0]/2" = .ok p ∧
        p.evaluate (.json d) = .ok m ∧ m.items = [.scalar (.int 2)] ∧
          compile (Configuration.default.withStrict false) "$[0]/2" = .ok q ∧
            q.evaluate (.json d) = .ok m' ∧ m'.items = m.items := by
  intro d
  let ts : List Term := [.binary .div (.path .root [.index 0]) (.literal (.int 2))]
  have hparse : parse Registry.builtins.signatures "$[0]/2" = .ok ts := by decide +kernel
  let p : Query := ⟨"$[0]/2", ts, Configuration.default.withStrict true⟩
  have hp : compile (Configuration.default.withStrict true) "$[0]/2" = .ok p :=
    compile_eq_ok_iff.mpr ⟨rfl, rfl, hparse⟩
  obtain ⟨m, hm, hitems⟩ : ∃ m, p.evaluate (.json d) = .ok m ∧ m.items = [.scalar (.int 2)] :=
    ⟨_, rfl, rfl⟩
  obtain ⟨q, hq, _, hm'⟩ := evaluate_lenient_of_strict rfl hp hm
  exact ⟨p, q, m, _, hp, hm, hitems, hq, hm', rfl⟩

end Query
end PathQuery
