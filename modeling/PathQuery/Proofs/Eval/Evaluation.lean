import PathQuery.Proofs.Eval.Builtins

/-!
# Evaluation is steady

An evaluation over a JSON document under steady functions, as the built-in ones are, has the same outcome
in every context that has handed out the nodes it starts from, under the same list and index in force.
-/

namespace PathQuery

/-! ### Calls -/

section

variable (registry : Registry)

mutual

/-- Every call in a term is of a function in the registry. -/
def Term.Resolves : Term → Prop
  | .literal _ => True
  | .path start segments => start.Resolves ∧ segmentsResolve segments
  | .call name args => (registry.find? name).isSome = true ∧ termsResolve args
  | .unary _ t => t.Resolves
  | .binary _ l r => l.Resolves ∧ r.Resolves
  | .ternary a b c => a.Resolves ∧ b.Resolves ∧ c.Resolves
  | .list ts => termsResolve ts

def Start.Resolves : Start → Prop
  | .term t => t.Resolves
  | _ => True

def Segment.Resolves : Segment → Prop
  | .recursive inner => inner.Resolves
  | .filter t | .predicate t => t.Resolves
  | .call name args => (registry.find? name).isSome = true ∧ termsResolve args
  | _ => True

def segmentsResolve : List Segment → Prop
  | [] => True
  | s :: ss => s.Resolves ∧ segmentsResolve ss

def termsResolve : List Term → Prop
  | [] => True
  | t :: ts => t.Resolves ∧ termsResolve ts

end

end

namespace EvalM

variable {d : Json.Document} {env : Env} {needs : List Item}

theorem Steady.scalar (v : Scalar) : Steady d (Pure.pure [.scalar v]) needs id :=
  .pure fun _ _ _ ha => by simp at ha

theorem Steady.nothing : Steady d (Pure.pure []) needs id :=
  .pure fun _ _ _ ha => absurd ha List.not_mem_nil

theorem Steady.filterAll {test : List Item → EvalM (List Item)}
    (henv : env.backend = Json.backend d) (htest : ∀ x, Steady d (test [x]) [x] id)
    (positional : Bool) (items : List Item) :
    Steady d (Step.filterAll env positional test items) items id := by
  choose out hout using htest
  refine .collect fun x hx => (Step.gives_candidates henv hx).steady.bind fun found => ?_
  exact ⟨_, Step.ends_filterCandidates hout positional (List.subset_append_right _ _)⟩

theorem Steady.each {items : List Item} {body : Item → EvalM (List Item)}
    (h : ∀ x, Steady d (body x) [x] id) : Steady d (EvalM.collect items body) items id :=
  .collect fun x hx => (h x).mono (List.cons_subset.mpr ⟨hx, List.nil_subset _⟩)

theorem Steady.applyBinary (env : Env) (op : BinaryOp) (lhs rhs : Option Item) :
    Steady d (applyBinary env op lhs rhs) needs id := by
  unfold PathQuery.applyBinary
  split
  · split
    · exact .scalar _
    · exact .scalar _
  · split
    · exact .settle env _
    · exact .nothing

end EvalM

/-! ### Terms and steps -/

section

open EvalM

variable {d : Json.Document} {env : Env} {registry : Registry}

/-- Functions that get arguments which are steady against all items are steady themselves. -/
def Registry.IsSteady (registry : Registry) (env : Env) (d : Json.Document) : Prop :=
  ∀ f ∈ registry.functions, ∀ (name : String) (args : List Argument) (items : List Item),
    (∀ a ∈ args, ∀ here, Steady d (a.eval here) here id) →
      Steady d (f.apply env name args items items) items id

theorem Argument.steady_against {args : List Argument} {items : List Item}
    (hargs : ∀ a ∈ args, ∀ here, Steady d (a.eval here) here id) :
    ∀ m ∈ Argument.against args items, Steady d m items id := by
  intro m hm
  obtain ⟨a, ha, rfl⟩ := List.mem_map.mp hm
  exact hargs a ha items

theorem Registry.builtins_isSteady (henv : env.backend = Json.backend d) :
    Registry.builtins.IsSteady env d :=
  fun _ hf name _ _ hargs => Builtin.steady_apply (Argument.steady_against hargs) henv hf name

theorem callFunction_steady (hsteady : registry.IsSteady env d) (name : String)
    {args : List Argument} (hargs : ∀ a ∈ args, ∀ here, Steady d (a.eval here) here id)
    (items : List Item) :
    Steady d (callFunction env registry name args items items) items id := by
  unfold callFunction
  cases hf : registry.find? name with
  | some f => exact hsteady f (Registry.mem_of_find? hf) name args items hargs
  | none => exact .throw _ _

mutual

theorem Term.eval_steady (henv : env.backend = Json.backend d)
    (hsteady : registry.IsSteady env d) (t : Term) (items : List Item) :
    Steady d (t.eval env registry items) items id := by
  cases t with
  | literal v =>
    rw [Term.eval]
    exact .traced (.scalar v)
  | path start segments =>
    rw [Term.eval]
    refine .traced ((start.eval_steady henv hsteady items).bind fun begin_ => ?_)
    exact (evalSegments_steady henv hsteady segments begin_).mono
      (List.subset_append_right _ _)
  | call name args =>
    rw [Term.eval]
    exact .traced (callFunction_steady hsteady name (evalArgs_steady henv hsteady args) items)
  | list ts =>
    rw [Term.eval]
    exact .traced (.joined (Argument.steady_against (evalArgs_steady henv hsteady ts)))
  | unary op t =>
    cases op with
    | not =>
      rw [Term.eval]
      exact .traced (.each fun x => (t.eval_steady henv hsteady [x]).bind fun r => .scalar _)
    | neg =>
      rw [Term.eval]
      refine .traced (.each fun x => (t.eval_steady henv hsteady [x]).bind fun r => ?_)
      split
      · exact .nothing
      · exact .settle env _
  | ternary a b c =>
    rw [Term.eval]
    refine .traced (.each fun x => (a.eval_steady henv hsteady [x]).bind fun r => ?_)
    split
    · exact (b.eval_steady henv hsteady [x]).mono (List.subset_append_left _ _)
    · exact (c.eval_steady henv hsteady [x]).mono (List.subset_append_left _ _)
  -- `and` and `or` may pass over their right operand, the other operators run both
  | binary op l r =>
    have hl : ∀ x, Steady d (l.eval env registry [x]) [x] id :=
      fun x => l.eval_steady henv hsteady [x]
    have hr : ∀ (x : Item) (found : List Item),
        Steady d (r.eval env registry [x]) ([x] ++ id found) id :=
      fun x found => (r.eval_steady henv hsteady [x]).mono (List.subset_append_left _ _)
    cases op with
    | and =>
      rw [Term.eval]
      refine .traced (.each fun x => (hl x).bind fun found => ?_)
      split
      · exact (hr x found).bind fun r => .scalar _
      · exact .scalar _
    | or =>
      rw [Term.eval]
      refine .traced (.each fun x => (hl x).bind fun found => ?_)
      split
      · exact .scalar _
      · exact (hr x found).bind fun r => .scalar _
    | _ =>
      rw [Term.eval]
      · exact .traced (.each fun x => (hl x).bind fun found =>
          (hr x found).bind fun _ => .applyBinary env _ _ _)
      all_goals
        intro hop
        cases hop

theorem Start.eval_steady (henv : env.backend = Json.backend d)
    (hsteady : registry.IsSteady env d) (s : Start) (items : List Item) :
    Steady d (s.eval env registry items) items id := by
  cases s with
  | root =>
    rw [Start.eval]
    exact .pure fun c _ a ha => .inl (Item.node.inj (List.mem_singleton.mp ha))
  | current =>
    rw [Start.eval]
    exact .pure fun c hc => hc
  | context =>
    rw [Start.eval]
    exact .pure fun c hc => hc
  | term t =>
    rw [Start.eval]
    exact t.eval_steady henv hsteady items

theorem Segment.step_steady (henv : env.backend = Json.backend d)
    (hsteady : registry.IsSteady env d) (s : Segment) (items : List Item) :
    Steady d (s.step env registry items) items id := by
  -- whatever a step finds, it keeps each node once
  have hdistinct : ∀ {m : EvalM (List Item)}, Steady d m items id →
      Steady d (m >>= EvalM.distinct) items id := fun hm =>
    hm.bind fun found => (Gives.distinct found).steady.mono (List.subset_append_right _ _)
  cases s with
  | call name args =>
    rw [Segment.step]
    exact hdistinct (callFunction_steady hsteady name (evalArgs_steady henv hsteady args) items)
  | filter test =>
    rw [Segment.step]
    exact hdistinct (.filterAll henv (fun x => test.eval_steady henv hsteady [x]) false items)
  | predicate test =>
    rw [Segment.step]
    exact hdistinct (.filterAll henv (fun x => test.eval_steady henv hsteady [x]) true items)
  | recursive inner =>
    rw [Segment.step]
    refine hdistinct ((Step.gives_descend henv true items).steady.bind fun nodes => ?_)
    exact (inner.step_steady henv hsteady nodes).mono (List.subset_append_right _ _)
  | recursiveWildcard =>
    rw [Segment.step]
    exact hdistinct (Step.gives_descend henv false items).steady
  | _ =>
    rw [Segment.step]
    · exact hdistinct (Step.gives_selectAll henv _ items).steady
    all_goals
      intros
      rename_i hs
      cases hs

theorem evalSegments_steady (henv : env.backend = Json.backend d)
    (hsteady : registry.IsSteady env d) (ss : List Segment) (items : List Item) :
    Steady d (evalSegments env registry ss items) items id := by
  cases ss with
  | nil =>
    rw [evalSegments]
    exact .pure fun c hc => hc
  | cons s ss =>
    rw [evalSegments]
    split
    · exact .pure fun c hc => hc
    · refine (s.step_steady henv hsteady items).bind fun next => ?_
      exact (evalSegments_steady henv hsteady ss next).mono (List.subset_append_right _ _)

theorem evalArgs_steady (henv : env.backend = Json.backend d)
    (hsteady : registry.IsSteady env d) (ts : List Term) :
    ∀ a ∈ evalArgs env registry ts, ∀ here, Steady d (a.eval here) here id := by
  cases ts with
  | nil =>
    rw [evalArgs]
    exact fun a ha => absurd ha List.not_mem_nil
  | cons t ts =>
    rw [evalArgs]
    intro a ha
    rcases List.mem_cons.mp ha with rfl | ha
    · exact t.eval_steady henv hsteady
    · exact evalArgs_steady henv hsteady ts a ha

end

end

end PathQuery
