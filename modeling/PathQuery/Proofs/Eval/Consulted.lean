import PathQuery.Proofs.Eval.CorrespondingBuiltins
import PathQuery.Proofs.Eval.CorrespondingEvaluation

/-!
# Settings that evaluations consult

Evaluations consult the tolerance, the locale and strictness; the other settings are for templates. A
function could read them all the same. One that does not, as no built-in function does, computes the
same when only the others change, and so do evaluations that call only such functions.
-/

namespace PathQuery

/-- The same settings, as far as evaluations consult them. -/
structure Settings.Evaluates (s s' : Settings) : Prop where
  tolerance : s'.tolerance = s.tolerance
  locale : s'.locale = s.locale
  strict : s'.strict = s.strict

open EvalM

variable {env : Env} {settings : Settings} (hsettings : env.settings.Evaluates settings)

/-- To be the same computation is a correspondence. -/
def EvalM.sameCorrespondence : Correspondence env settings env.traced where
  rel m m' := m = m'
  inner m m' := m = m'
  unknown := True
  agrees := ⟨hsettings.tolerance, hsettings.locale⟩
  pure _ := rfl
  bind hm hk := by rw [hm, funext hk]
  read _ := rfl
  handOut _ := rfl
  distinct _ := rfl
  settle outcome := by
    cases outcome with
    | ok v => rfl
    | error f =>
      have hstrict : (env.under settings env.traced).settings.strict = env.settings.strict :=
        hsettings.strict
      rw [EvalM.settle, EvalM.settle, hstrict]
      rfl
  traced t count h := by rw [h]; rfl
  unregistered _ _ := rfl
  inner_of_rel h := h
  inner_bind hm hk := by rw [hm, funext hk]
  inner_index _ := rfl
  within items h := by rw [h]

include hsettings

theorem EvalM.eq_of_sameCorrespondence {args args' : List Argument}
    (h : (sameCorrespondence hsettings).Arguments args args') : args = args' := by
  induction h with
  | nil => rfl
  | cons ha _ ih => rw [ih, Argument.ext ha.1 (funext ha.2)]

theorem Builtin.apply_withSettings {f : Function} (hf : f ∈ Registry.builtins.functions)
    (name : String) (args : List Argument) (context input : List Item) :
    f.apply (env.withSettings settings) name args context input =
      f.apply env name args context input := by
  have hsame : (sameCorrespondence hsettings).Arguments args args :=
    List.forall₂_same.mpr fun _ _ => ⟨rfl, fun _ => rfl⟩
  exact (covers_builtins (sameCorrespondence hsettings) f hf name args args context input hsame).symm

/-- Terms select the same, if the functions do the same. -/
theorem selectTerms_withSettings {registry : Registry}
    (hfunctions : ∀ f ∈ registry.functions, ∀ name args context input,
      f.apply (env.withSettings settings) name args context input =
        f.apply env name args context input)
    (ts : List Term) (items : List Item) :
    selectTerms (env.withSettings settings) registry ts items = selectTerms env registry ts items := by
  refine (selectTerms_corresponds (sameCorrespondence hsettings) ?_ ts (.inl trivial) items).symm
  intro f hf name args args' context input hargs
  change f.apply env name args context input =
    f.apply (env.withSettings settings) name args' context input
  rw [hfunctions f hf, eq_of_sameCorrespondence hsettings hargs]

end PathQuery
