import PathQuery.Proofs.Query.Compiled
import PathQuery.Proofs.Expression.Sameness

/-!
# Queries one after the other

A context keeps the links to parents that queries have found. All of them are those of the document, and
no query asks about a node that it has not been handed out itself. So what a query comes to does not
depend on what has been evaluated before it in the same context.
-/

namespace PathQuery
namespace Query

open EvalM

/-- The query has been compiled, under a configuration with the built-in functions. -/
def OfBuiltins (q : Query) : Prop :=
  q.config.functions = .builtins ∧ compile q.config q.source = .ok q

/-- The context after queries have been evaluated from the root in turn, whatever they have come to. -/
def contextAfter (env : Env) : List Query → Context → Context
  | [], c => c
  | q :: qs, c => contextAfter env qs ((q.select env [.node []]).runFrom c).2

section

variable {d : Json.Document} {env : Env} (henv : env.backend = Json.backend d)

include henv

theorem OfBuiltins.steady {q : Query} (h : q.OfBuiltins) (items : List Item) :
    Steady d (q.select env items) items id :=
  select_steady_of_compile h.2 h.1 henv items

theorem OfBuiltins.extends_select {q : Query} (h : q.OfBuiltins) {c : Context} (hc : c.Truthful d) :
    c.Extends d ((q.select env [.node []]).runFrom c).2 := by
  obtain ⟨out, hout⟩ := h.steady henv [.node []]
  obtain ⟨c', hrun, hextends, _⟩ := hout c hc fun a ha =>
    .inl (Item.node.inj (List.mem_singleton.mp ha))
  rw [hrun]
  exact hextends

theorem extends_contextAfter {qs : List Query} (hqs : ∀ q ∈ qs, q.OfBuiltins) {c : Context}
    (hc : c.Truthful d) : c.Extends d (contextAfter env qs c) := by
  induction qs generalizing c with
  | nil => exact .refl hc
  | cons q qs ih =>
    -- links that this query adds are true, so the rest starts from a truthful context again
    have hfirst := (hqs q List.mem_cons_self).extends_select henv hc
    exact hfirst.trans (ih (fun p hp => hqs p (List.mem_cons_of_mem _ hp)) hfirst.truthful)

/-- From contexts with the same list and index in force and true links, a query has the same outcome. -/
theorem OfBuiltins.select_fst_eq {q : Query} (h : q.OfBuiltins) {c c' : Context} (hc : c.Truthful d)
    (hc' : c'.Truthful d) (hitems : c'.items = c.items) (hindex : c'.index = c.index) :
    ((q.select env [.node []]).runFrom c').1 = ((q.select env [.node []]).runFrom c).1 := by
  obtain ⟨out, hout⟩ := h.steady henv [.node []]
  have hroot : ∀ c : Context, c.KnowsAll [.node []] := fun c a ha =>
    .inl (Item.node.inj (List.mem_singleton.mp ha))
  obtain ⟨_, hrun, _⟩ := hout c hc (hroot c)
  obtain ⟨_, hrun', _⟩ := hout c' hc' (hroot c')
  rw [hrun, hrun', hitems, hindex]

end

/-- A query over a JSON document gives the same items or fails with the same error in a fresh context
and in one in which other queries have been evaluated before it, whatever they have come to. -/
theorem select_after_others (d : Json.Document) (settings : Settings) (traced : Bool)
    {earlier : List Query} (hearlier : ∀ p ∈ earlier, p.OfBuiltins) {q : Query} (hq : q.OfBuiltins) :
    let env : Env := ⟨Json.backend d, settings, traced⟩
    ((q.select env [.node []]).runFrom (contextAfter env earlier .initial)).1 =
      ((q.select env [.node []]).runFrom .initial).1 := by
  intro env
  have hextends : Context.Extends d .initial (contextAfter env earlier .initial) :=
    extends_contextAfter rfl hearlier Context.truthful_initial
  exact hq.select_fst_eq rfl Context.truthful_initial hextends.truthful hextends.items hextends.index

/-- After a strict division by zero, the parent of an element is still found. -/
theorem select_after_others_division :
    let d : Json.Document := ⟨.array [.number (.int 4)], by simp [Json.Ordered, Json.OrderedItems]⟩
    let p : Query := ⟨"$[0]/0", [.binary .div (.path .root [.index 0]) (.literal (.int 0))], .default⟩
    let q : Query := ⟨"$[0].parent()", [.path .root [.index 0, .call "parent" []]], .default⟩
    let env : Env := ⟨Json.backend d, { Settings.default with strict := true }, false⟩
    p.OfBuiltins ∧ q.OfBuiltins ∧
      ((p.select env [.node []]).runFrom .initial).1.toOption = none ∧
      ((q.select env [.node []]).runFrom (contextAfter env [p] .initial)).1 = .ok [.node []] := by
  intro d p q env
  have hp : p.OfBuiltins :=
    ⟨rfl, compile_eq_ok_iff.mpr ⟨rfl, rfl, by decide +kernel⟩⟩
  have hq : q.OfBuiltins :=
    ⟨rfl, compile_eq_ok_iff.mpr ⟨rfl, rfl, by decide +kernel⟩⟩
  refine ⟨hp, hq, by decide +kernel, ?_⟩
  rw [select_after_others d _ false (fun _ h => List.mem_singleton.mp h ▸ hp) hq]
  decide +kernel

end Query
end PathQuery
