import PathQuery.Template.Render

/-!
# Running renderings

What computations over the state of a rendering come to from a given state, and what all their results
have in common.
-/

namespace PathQuery
namespace RenderM

variable {α β γ : Type}

theorem ext {m m' : RenderM α} (h : ∀ s, m.runFrom s = m'.runFrom s) : m = m' := funext h

theorem runFrom_get (s : RenderState) :
    (get : RenderM RenderState).runFrom s = (.ok s, s) := rfl

theorem runFrom_set (s s' : RenderState) :
    (set s' : RenderM Unit).runFrom s = (.ok (), s') := rfl

theorem runFrom_within (items : List Item) (body : RenderM α) (s : RenderState) :
    (within items body).runFrom s =
      let ran := body.runFrom { s with context := (s.context.enter items).2 }
      (ran.1, { ran.2 with context := ran.2.context.leave (s.context.enter items).1 }) := rfl

theorem runFrom_bind (m : RenderM α) (k : α → RenderM β) (s : RenderState) :
    (m >>= k).runFrom s =
      match m.runFrom s with
      | (.ok x, s') => (k x).runFrom s'
      | (.error e, s') => (.error e, s') := by
  simp only [runFrom, ExceptT.run_bind, StateT.run_bind]
  cases m.run.run s with
  | mk outcome s' =>
    cases outcome with
    | ok x => rfl
    | error e => rfl

theorem runFrom_bind_ok {m : RenderM α} {s s' : RenderState} {x : α}
    (h : m.runFrom s = (.ok x, s')) (k : α → RenderM β) :
    (m >>= k).runFrom s = (k x).runFrom s' := by
  rw [runFrom_bind, h]

theorem runFrom_bind_error {m : RenderM α} {s s' : RenderState} {e : RenderError}
    (h : m.runFrom s = (.error e, s')) (k : α → RenderM β) :
    (m >>= k).runFrom s = (.error e, s') := by
  rw [runFrom_bind, h]

theorem ok_of_runFrom_bind {m : RenderM α} {k : α → RenderM β} {s s' : RenderState} {y : β}
    (h : (m >>= k).runFrom s = (.ok y, s')) :
    ∃ x s₁, m.runFrom s = (.ok x, s₁) ∧ (k x).runFrom s₁ = (.ok y, s') := by
  rw [runFrom_bind] at h
  split at h
  · next x s₁ hm => exact ⟨x, s₁, hm, h⟩
  · cases h

/-! ### Acts -/

theorem runFrom_write (sink : Sink) (bound : Nat) (w : Write) (s : RenderState) :
    (write sink bound w).runFrom s =
      if bound < s.written + w.text.utf8ByteSize then (.error (.limit .outputSize bound), s)
      else if sink s.writes w = true then
        (.ok (), { s with writes := w :: s.writes, written := s.written + w.text.utf8ByteSize })
      else (.error .sinkFailed, s) := by
  rw [write, runFrom_bind_ok (runFrom_get s)]
  dsimp only
  split
  · rfl
  · split
    · rfl
    · rfl

theorem runFrom_tick (bound : Nat) (s : RenderState) :
    (tick bound).runFrom s =
      if s.iterations < bound then (.ok (), { s with iterations := s.iterations + 1 })
      else (.error (.limit .iterations bound), s) := by
  rw [tick, runFrom_bind_ok (runFrom_get s)]
  split
  · rfl
  · rfl

theorem runFrom_ask (includer : Includer) (depth : Nat) (call : IncludeCall) (s : RenderState) :
    (ask includer depth call).runFrom s =
      ((includer s.calls call).mapError (.notIncluded call.name),
        { s with calls := call :: s.calls, deepest := max s.deepest depth }) := by
  rw [ask, runFrom_bind_ok (runFrom_get s), runFrom_bind_ok (runFrom_set s _)]
  cases includer s.calls call with
  | ok found => rfl
  | error failure => rfl

theorem runFrom_evaluate (m : EvalM α) (s : RenderState) :
    (evaluate m).runFrom s =
      ((m.runFrom s.context).1.mapError .eval, { s with context := (m.runFrom s.context).2 }) := rfl

/-- Parts that are kept for the location are given as they are; others are compiled, and may be kept. -/
theorem runFrom_partsOf (r : Renderer) (name : String) (found : Included) (s : RenderState) :
    (r.partsOf name found).runFrom s =
      match s.compiled.lookup found.location with
      | some parts => (.ok parts, s)
      | none =>
        match parseTemplate r.config.functions.signatures found.content with
        | .error e => (.error (.included name e), s)
        | .ok parts =>
          (.ok parts,
            if r.keepsCompiled then { s with compiled := (found.location, parts) :: s.compiled }
            else s) := by
  rw [Renderer.partsOf, runFrom_bind_ok (runFrom_get s)]
  cases s.compiled.lookup found.location with
  | some parts => rfl
  | none =>
    cases parseTemplate r.config.functions.signatures found.content with
    | error e => rfl
    | ok parts =>
      cases r.keepsCompiled with
      | false => rfl
      | true => rfl

/-- What is found after one more text has been kept is what is kept of it, or was found before. -/
theorem lookup_kept {kept : List (String × List Part)} {location location' : String}
    {parts parts' : List Part} (h : ((location, parts) :: kept).lookup location' = some parts') :
    location' = location ∧ parts' = parts ∨ kept.lookup location' = some parts' := by
  rw [List.lookup_cons] at h
  split at h
  · next heq => exact .inl ⟨eq_of_beq heq, (Option.some.inj h).symm⟩
  · exact .inr h

/-! ### Relations and results -/

/-- What follows a computation leads from the state that it ends in to a related one. Without a result
nothing follows, and the state is the same. -/
theorem rel_after {R : RenderState → RenderState → Prop} (hrefl : ∀ s, R s s) (m : RenderM α)
    {k : α → RenderM β} (hk : ∀ x s, R s ((k x).runFrom s).2) (s : RenderState) :
    R (m.runFrom s).2 ((m >>= k).runFrom s).2 := by
  rw [runFrom_bind]
  cases m.runFrom s with
  | mk outcome s' =>
    cases outcome with
    | ok x => exact hk x s'
    | error e => exact hrefl s'

/-- Whatever the computation comes to, `f` says of the state what it said before. -/
def Keeps (f : RenderState → γ) (m : RenderM α) : Prop := ∀ s, f (m.runFrom s).2 = f s

namespace Keeps

variable {f : RenderState → γ}

theorem pure (x : α) : Keeps f (Pure.pure x : RenderM α) := fun _ => rfl

theorem throw (e : RenderError) : Keeps f (throw e : RenderM α) := fun _ => rfl

theorem after {m : RenderM α} {k : α → RenderM β} (hk : ∀ x, Keeps f (k x)) (s : RenderState) :
    f ((m >>= k).runFrom s).2 = f (m.runFrom s).2 :=
  rel_after (R := fun s s' => f s' = f s) (fun _ => rfl) m hk s

theorem bind {m : RenderM α} {k : α → RenderM β} (hm : Keeps f m) (hk : ∀ x, Keeps f (k x)) :
    Keeps f (m >>= k) :=
  fun s => (after hk s).trans (hm s)

theorem evaluate (hcontext : ∀ s c, f { s with context := c } = f s) (m : EvalM α) :
    Keeps f (RenderM.evaluate m) :=
  fun s => hcontext s _

theorem write (hwrites : ∀ s writes written, f { s with writes := writes, written := written } = f s)
    (sink : Sink) (bound : Nat) (w : Write) : Keeps f (RenderM.write sink bound w) := by
  intro s
  rw [runFrom_write]
  split
  · rfl
  · split
    · exact hwrites s _ _
    · rfl

theorem tick (hiterations : ∀ s iterations, f { s with iterations := iterations } = f s) (bound : Nat) :
    Keeps f (RenderM.tick bound) := by
  intro s
  rw [runFrom_tick]
  split
  · exact hiterations s _
  · rfl

theorem ask (hcalls : ∀ s calls deepest, f { s with calls := calls, deepest := deepest } = f s)
    (includer : Includer) (depth : Nat) (call : IncludeCall) :
    Keeps f (RenderM.ask includer depth call) := by
  intro s
  rw [runFrom_ask]
  exact hcalls s _ _

theorem partsOf (hcompiled : ∀ s compiled, f { s with compiled := compiled } = f s) (r : Renderer)
    (name : String) (found : Included) : Keeps f (r.partsOf name found) := by
  intro s
  rw [runFrom_partsOf]
  split
  · rfl
  · split
    · rfl
    · split
      · exact hcompiled s _
      · rfl

end Keeps

def Yields (m : RenderM α) (P : α → Prop) : Prop := ∀ s x s', m.runFrom s = (.ok x, s') → P x

theorem Yields.pure {x : α} {P : α → Prop} (h : P x) : Yields (Pure.pure x) P := by
  rintro s y s' hrun
  cases hrun
  exact h

theorem Yields.throw (e : RenderError) (P : α → Prop) : Yields (throw e) P := by
  rintro s y s' hrun
  cases hrun

theorem Yields.bind {m : RenderM α} {k : α → RenderM β} {P : β → Prop}
    (h : ∀ x, Yields (k x) P) : Yields (m >>= k) P := by
  intro s y s' hrun
  obtain ⟨x, s₁, _, hrest⟩ := ok_of_runFrom_bind hrun
  exact h x s₁ y s' hrest

end RenderM
end PathQuery
