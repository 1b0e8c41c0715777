import PathQuery.Proofs.Eval.Restoring
import PathQuery.Proofs.Template.Lockstep

/-!
# Renderings give the context back

A loop puts its results in force and moves the index in them, and everything else of a rendering leaves
the context to evaluations. So a rendering leaves the list, the index and the scopes as they were,
through blocks and includes inside each other and with every outcome.
-/

namespace PathQuery
namespace RenderM

variable {α β : Type}

/-- Whatever the computation comes to, it gives the context back. -/
def Restores (m : RenderM α) : Prop :=
  ∀ s : RenderState, s.context.Restored (m.runFrom s).2.context

def KeepsScopes (m : RenderM α) : Prop :=
  ∀ s : RenderState, (m.runFrom s).2.context.scopes = s.context.scopes

theorem Restores.keepsScopes {m : RenderM α} (h : Restores m) : KeepsScopes m :=
  fun s => (h s).scopes

theorem KeepsScopes.bind {m : RenderM α} {k : α → RenderM β} (hm : KeepsScopes m)
    (hk : ∀ x, KeepsScopes (k x)) : KeepsScopes (m >>= k) :=
  Keeps.bind (f := fun s => s.context.scopes) hm hk

namespace Restores

theorem pure (x : α) : Restores (Pure.pure x) := fun s => .refl s.context

theorem of_keeps {m : RenderM α} (h : Keeps RenderState.context m) : Restores m := by
  intro s
  rw [h s]
  exact .refl s.context

theorem bind {m : RenderM α} {k : α → RenderM β} (hm : Restores m) (hk : ∀ x, Restores (k x)) :
    Restores (m >>= k) := by
  intro s
  have hafter := rel_after (R := fun s s' => s.context.Restored s'.context) (fun s => .refl s.context)
    m hk s
  exact (hm s).trans hafter

theorem evaluate {m : EvalM α} (h : EvalM.Restores m) : Restores (RenderM.evaluate m) :=
  fun s => h s.context

theorem within {m : RenderM α} (items : List Item) (h : KeepsScopes m) :
    Restores (RenderM.within items m) := by
  intro s
  rw [runFrom_within]
  exact ⟨rfl, rfl, h _⟩

end Restores
end RenderM

namespace Renderer

open RenderM

variable {r : Renderer}

theorem select_restores (hfunctions : r.config.functions = .builtins) (terms : List Term)
    (current : List Item) : Restores (r.select terms current) := by
  unfold select
  rw [hfunctions]
  exact .evaluate (selectTerms_restores r.env terms current)

/-- A rendering gives the context back bit by bit. The index is set for the bodies of a loop and put
back only around the whole loop. -/
def restoring (r : Renderer) (hfunctions : r.config.functions = .builtins) : Lockstep r r where
  rel _ m _ := Restores m
  inner _ m _ := KeepsScopes m
  tree := .refl r
  mono _ h := h
  nothing _ := .pure ()
  andThen hm hk := hm.bind fun _ => hk
  select terms hk := (select_restores hfunctions terms _).bind hk
  write _ _ _ := .of_keeps (.write (fun _ _ _ => rfl) _ _ _)
  inner_of_rel h := h.keepsScopes
  inner_andThen hm hk := hm.bind fun _ => hk
  inner_tick _ := Restores.keepsScopes (.of_keeps (.tick (fun _ _ => rfl) _))
  inner_index _ _ := fun _ => rfl
  within items h := .within items h

theorem renderParts_restores (hfunctions : r.config.functions = .builtins)
    {insert : IncludeCall → List Item → RenderM Unit}
    (hinsert : ∀ call current, Restores (insert call current)) (base : Option String)
    (current : List Item) (ps : List Part) : Restores (r.renderParts insert base current ps) := by
  have hsame : ∀ call current, (r.restoring hfunctions).rel current (insert call current)
      (insert call current) := hinsert
  exact (r.restoring hfunctions).renderParts hsame base current ps

theorem insertion_restores (hfunctions : r.config.functions = .builtins)
    (remaining : Nat) (call : IncludeCall) (current : List Item) :
    Restores (r.insertion remaining call current) := by
  refine (r.restoring hfunctions).insertion rfl rfl (fun _ e => .of_keeps (.throw e)) ?_ remaining
    call current
  intro needs includer _ depth call k k' hk
  refine Restores.bind (.of_keeps (.ask (fun _ _ _ => rfl) includer depth call)) fun found => ?_
  exact Restores.bind (.of_keeps (.partsOf (fun _ _ => rfl) r call.name found)) (hk found)

/-- Terms, steps and the parts of templates, with all that they include, give the context back. So
`position()` answers after them what it answered before. -/
theorem context_given_back (r : Renderer) (hfunctions : r.config.functions = .builtins) :
    (∀ (t : Term) (items : List Item), EvalM.Restores (t.eval r.env .builtins items)) ∧
      (∀ (s : Segment) (items : List Item), EvalM.Restores (s.step r.env .builtins items)) ∧
        (∀ (remaining : Nat) (base : Option String) (current : List Item) (ps : List Part),
          Restores (r.renderParts (r.insertion remaining) base current ps)) ∧
          ∀ (c c' : Context) (items : List Item), c.Restored c' →
            (((Term.call "position" []).eval r.env .builtins items).runFrom c').1 =
              (((Term.call "position" []).eval r.env .builtins items).runFrom c).1 :=
  ⟨Term.eval_restores r.env, Segment.step_restores r.env,
    fun remaining => renderParts_restores hfunctions (insertion_restores hfunctions remaining),
    fun _ _ items h => h.position_eq r.env items⟩

/-- A sink that refuses the text inside two loops leaves the position of the loop around them. -/
theorem context_given_back_loops :
    let d : Json.Document := ⟨.array [.array [.null, .bool true]], by
      simp [Json.Ordered, Json.OrderedItems]⟩
    let r : Renderer := ⟨Configuration.default.env (Json.backend d), .default, .ofCapacity 0, true⟩
    let ps : List Part := [.loop [.path .root [.wildcard]]
      [.loop [.path .current [.wildcard]] [.text "x"]]]
    let s : RenderState := { RenderState.initial with
      context := { Context.initial with index := some 5 } }
    ((r.renderParts (r.insertion 0) none [.node []] ps).runFrom s).1.mapError RenderError.message =
        .error "failed to write template output" ∧
      ((r.renderParts (r.insertion 0) none [.node []] ps).runFrom s).2.context.index = some 5 := by
  intro d r ps s
  have hrestored := (context_given_back r rfl).2.2.1 0 none [.node []] ps s
  exact ⟨by decide +kernel, hrestored.index⟩

end Renderer
end PathQuery
