import PathQuery.Proofs.Eval.Consulted
import PathQuery.Proofs.Template.Budgets

/-!
# Evaluations do not consult the bounds of templates

The bounds of templates are settings like others, so a function could read them. One that does not,
as no built-in function does, computes the same under all bounds, and so do evaluations that call only
such functions.
-/

namespace PathQuery

/-! ### Changed bounds -/

/-- The same settings with other bounds. -/
def Settings.withBounds (s : Settings) (bound : Limit → Nat) : Settings :=
  { s with
    maxIterations := bound .iterations
    maxIncludeDepth := bound .includeDepth
    maxOutputSize := bound .outputSize }

@[simp] theorem Settings.bound_withBounds (s : Settings) (bound : Limit → Nat) :
    (s.withBounds bound).bound = bound := by
  funext kind
  cases kind <;> rfl

def Env.withBounds (env : Env) (bound : Limit → Nat) : Env :=
  env.withSettings (env.settings.withBounds bound)

def Configuration.withBounds (c : Configuration) (bound : Limit → Nat) : Configuration :=
  c.withSettings (c.settings.withBounds bound)

def Template.withBounds (t : Template) (bound : Limit → Nat) : Template :=
  { t with config := t.config.withBounds bound }

theorem Configuration.open?_withBounds {c : Configuration} {root : Root} {env : Env}
    (h : c.open? root = .ok env) (bound : Limit → Nat) :
    (c.withBounds bound).open? root = .ok (env.withBounds bound) := by
  simp only [open?, withBounds, withSettings] at h ⊢
  split at h
  · cases h
    rfl
  · cases h

theorem Configuration.open?_withBounds_error {c : Configuration} {root : Root} {e : EvalError}
    (h : c.open? root = .error e) (bound : Limit → Nat) :
    (c.withBounds bound).open? root = .error e := by
  simp only [open?, withBounds, withSettings] at h ⊢
  split at h
  · cases h
  · exact h

/-! ### Functions and evaluations -/

/-- The function does not consult the bounds of templates. -/
def Function.IgnoresBounds (f : Function) : Prop :=
  ∀ (env : Env) (bound : Limit → Nat) (name : String) (args : List Argument)
    (context input : List Item),
    f.apply (env.withBounds bound) name args context input = f.apply env name args context input

theorem Settings.evaluates_withBounds (s : Settings) (bound : Limit → Nat) :
    s.Evaluates (s.withBounds bound) := ⟨rfl, rfl, rfl⟩

theorem Builtin.ignoresBounds {f : Function} (hf : f ∈ Registry.builtins.functions) :
    f.IgnoresBounds :=
  fun env bound => apply_withSettings (env.settings.evaluates_withBounds bound) hf

theorem selectTerms_withBounds {registry : Registry}
    (hfunctions : ∀ f ∈ registry.functions, f.IgnoresBounds) (env : Env) (bound : Limit → Nat)
    (ts : List Term) (items : List Item) :
    selectTerms (env.withBounds bound) registry ts items = selectTerms env registry ts items :=
  selectTerms_withSettings (env.settings.evaluates_withBounds bound)
    (fun f hf => hfunctions f hf env bound) ts items

end PathQuery
