import PathQuery.Proofs.Eval.Links
import PathQuery.Proofs.Eval.Running

/-!
# Computations that do not depend on what has happened before

Over a JSON document it does not matter for an evaluation which nodes the context has handed out so
far, as long as it has handed out those that the evaluation starts from: it has the same result or
fails in the same way. `Gives` says this of a computation with a known result, `Ends` of one with a
known outcome, and `Steady` of one with some outcome. All carry over from the parts of a computation to
the whole.
-/

namespace PathQuery
namespace EvalM

variable {d : Json.Document} {α β : Type} {needs : List Item}

/-- From every context that knows the nodes it needs, the computation gives the result that belongs
to the list and the index in force, extends the context and knows the nodes of its result. -/
def Gives (d : Json.Document) (m : EvalM α) (needs : List Item) (nodes : α → List Item)
    (out : List Item → Option Nat → α) : Prop :=
  ∀ c : Context, c.Truthful d → c.KnowsAll needs →
    ∃ c', m.runFrom c = (.ok (out c.items c.index), c') ∧ c.Extends d c' ∧
      c'.KnowsAll (nodes (out c.items c.index))

/-- From every context that knows the nodes it needs, the computation has the outcome that belongs to
the list and the index in force and extends the context, which knows the nodes of a result. -/
def Ends (d : Json.Document) (m : EvalM α) (needs : List Item) (nodes : α → List Item)
    (out : List Item → Option Nat → Except EvalError α) : Prop :=
  ∀ c : Context, c.Truthful d → c.KnowsAll needs →
    ∃ c', m.runFrom c = (out c.items c.index, c') ∧ c.Extends d c' ∧
      ∀ x, out c.items c.index = .ok x → c'.KnowsAll (nodes x)

def Steady (d : Json.Document) (m : EvalM α) (needs : List Item) (nodes : α → List Item) : Prop :=
  ∃ out, Ends d m needs nodes out

/-! ### Results in turn -/

theorem Gives.ends {m : EvalM α} {nodes : α → List Item} {out : List Item → Option Nat → α}
    (h : Gives d m needs nodes out) : Ends d m needs nodes fun items index => .ok (out items index) := by
  intro c hc hneeds
  obtain ⟨c', hrun, hextends, hknown⟩ := h c hc hneeds
  refine ⟨c', hrun, hextends, fun x hx => ?_⟩
  cases hx
  exact hknown

theorem Ends.gives {m : EvalM α} {nodes : α → List Item} {out : List Item → Option Nat → α}
    (h : Ends d m needs nodes fun items index => .ok (out items index)) :
    Gives d m needs nodes out := by
  intro c hc hneeds
  obtain ⟨c', hrun, hextends, hknown⟩ := h c hc hneeds
  exact ⟨c', hrun, hextends, hknown _ rfl⟩

theorem Gives.steady {m : EvalM α} {nodes : α → List Item} {out : List Item → Option Nat → α}
    (h : Gives d m needs nodes out) : Steady d m needs nodes := ⟨_, h.ends⟩

theorem Steady.gives {m : EvalM (List Item)} {nodes : List Item → List Item}
    (h : Steady d m needs nodes) (htotal : ∀ c, ∃ x c', m.runFrom c = (.ok x, c')) :
    ∃ out, Gives d m needs nodes out := by
  obtain ⟨out, hout⟩ := h
  refine ⟨fun items index => (out items index).toOption.getD [], fun c hc hneeds => ?_⟩
  obtain ⟨c', hrun, hextends, hknown⟩ := hout c hc hneeds
  obtain ⟨x, c'', htotal⟩ := htotal c
  rw [hrun] at htotal
  dsimp only
  cases hok : out c.items c.index with
  | error e =>
    rw [hok] at htotal
    cases htotal
  | ok y =>
    rw [hok] at hrun
    exact ⟨c', hrun, hextends, hknown y hok⟩

theorem Gives.pure {x : α} {nodes : α → List Item}
    (h : ∀ c : Context, c.KnowsAll needs → c.KnowsAll (nodes x)) :
    Gives d (pure x) needs nodes fun _ _ => x :=
  fun c hc hneeds => ⟨c, rfl, .refl hc, h c hneeds⟩

theorem Gives.bind {m : EvalM α} {k : α → EvalM β} {nodes : α → List Item}
    {nodes' : β → List Item} {out : List Item → Option Nat → α}
    {out' : List Item → Option Nat → List Item → Option Nat → β} (hm : Gives d m needs nodes out)
    (hk : ∀ items index, Gives d (k (out items index)) (needs ++ nodes (out items index)) nodes'
      (out' items index)) :
    Gives d (m >>= k) needs nodes' fun items index => out' items index items index := by
  intro c hc hneeds
  obtain ⟨c₁, hrun, hextends, hknown⟩ := hm c hc hneeds
  have hneeds₁ : c₁.KnowsAll (needs ++ nodes (out c.items c.index)) :=
    Context.knowsAll_append.mpr ⟨hextends.knowsAll hneeds, hknown⟩
  obtain ⟨c₂, hrun₂, hextends₂, hknown₂⟩ := hk c.items c.index c₁ hextends.truthful hneeds₁
  rw [hextends.items, hextends.index] at hrun₂ hknown₂
  refine ⟨c₂, ?_, hextends.trans hextends₂, hknown₂⟩
  rw [runFrom_bind_ok hrun, hrun₂]

/-- A computation after one whose result is the same whatever list is in force. -/
theorem Gives.andThen {m : EvalM α} {k : α → EvalM β} {nodes : α → List Item}
    {nodes' : β → List Item} {x : α} {out : List Item → Option Nat → β}
    (hm : Gives d m needs nodes fun _ _ => x) (hk : Gives d (k x) (needs ++ nodes x) nodes' out) :
    Gives d (m >>= k) needs nodes' out := by
  have h := hm.bind fun _ _ => hk
  exact h

theorem Gives.mono {m : EvalM α} {nodes : α → List Item} {out : List Item → Option Nat → α}
    {more : List Item} (h : Gives d m needs nodes out) (hsubset : needs ⊆ more) :
    Gives d m more nodes out :=
  fun c hc hmore => h c hc fun a ha => hmore a (hsubset ha)

theorem Gives.congr {m : EvalM α} {nodes : α → List Item} {out out' : List Item → Option Nat → α}
    (h : Gives d m needs nodes out)
    (heq : ∀ c : Context, c.Truthful d → c.KnowsAll needs →
      out c.items c.index = out' c.items c.index) : Gives d m needs nodes out' := by
  intro c hc hneeds
  rw [← heq c hc hneeds]
  exact h c hc hneeds

theorem Ends.bind {m : EvalM α} {k : α → EvalM β} {nodes : α → List Item} {nodes' : β → List Item}
    {out : List Item → Option Nat → Except EvalError α}
    {out' : α → List Item → Option Nat → Except EvalError β} (hm : Ends d m needs nodes out)
    (hk : ∀ x, Ends d (k x) (needs ++ nodes x) nodes' (out' x)) :
    Ends d (m >>= k) needs nodes' fun items index =>
      out items index >>= fun x => out' x items index := by
  intro c hc hneeds
  obtain ⟨c₁, hrun, hextends, hknown⟩ := hm c hc hneeds
  dsimp only
  cases hout : out c.items c.index with
  | error e =>
    rw [hout] at hrun
    refine ⟨c₁, ?_, hextends, fun y hy => by cases hy⟩
    rw [runFrom_bind, hrun]
    rfl
  | ok x =>
    rw [hout] at hrun
    have hneeds₁ : c₁.KnowsAll (needs ++ nodes x) :=
      Context.knowsAll_append.mpr ⟨hextends.knowsAll hneeds, hknown x hout⟩
    obtain ⟨c₂, hrun₂, hextends₂, hknown₂⟩ := hk x c₁ hextends.truthful hneeds₁
    rw [hextends.items, hextends.index] at hrun₂ hknown₂
    exact ⟨c₂, by rw [runFrom_bind_ok hrun, hrun₂]; rfl, hextends.trans hextends₂, hknown₂⟩

theorem Steady.pure {x : α} {nodes : α → List Item}
    (h : ∀ c : Context, c.KnowsAll needs → c.KnowsAll (nodes x)) :
    Steady d (pure x) needs nodes := (Gives.pure h).steady

theorem Steady.throw (e : EvalError) (nodes : α → List Item) : Steady d (throw e) needs nodes :=
  ⟨fun _ _ => .error e, fun c hc _ => ⟨c, rfl, .refl hc, fun x hx => by cases hx⟩⟩

theorem Steady.bind {m : EvalM α} {k : α → EvalM β} {nodes : α → List Item}
    {nodes' : β → List Item} (hm : Steady d m needs nodes)
    (hk : ∀ x, Steady d (k x) (needs ++ nodes x) nodes') : Steady d (m >>= k) needs nodes' := by
  obtain ⟨out, hout⟩ := hm
  choose out' hout' using hk
  exact ⟨_, hout.bind hout'⟩

theorem Steady.mono {m : EvalM α} {nodes : α → List Item} {more : List Item}
    (h : Steady d m needs nodes) (hsubset : needs ⊆ more) : Steady d m more nodes := by
  obtain ⟨out, hout⟩ := h
  exact ⟨out, fun c hc hmore => hout c hc fun a ha => hmore a (hsubset ha)⟩

theorem Steady.return_nodes {m : EvalM α} {nodes : α → List Item} {f : α → List Item}
    (hm : Steady d m needs nodes) (hf : ∀ x a, .node a ∈ f x → .node a ∈ nodes x) :
    Steady d (m >>= fun x => Pure.pure (f x)) needs id := by
  refine hm.bind fun x => .pure ?_
  intro c hc a ha
  exact hc a (List.mem_append_right _ (hf x a ha))

/-- A computation that reads the context and leaves it as it is. -/
theorem Gives.read {k : Context → EvalM α} {nodes : α → List Item}
    {out : List Item → Option Nat → α}
    (h : ∀ c : Context, c.Truthful d → c.KnowsAll needs →
      (k c).runFrom c = (.ok (out c.items c.index), c) ∧
        c.KnowsAll (nodes (out c.items c.index))) :
    Gives d (get >>= k) needs nodes out := by
  intro c hc hneeds
  obtain ⟨hrun, hknown⟩ := h c hc hneeds
  refine ⟨c, ?_, .refl hc, hknown⟩
  rw [runFrom_bind_ok (runFrom_get c), hrun]

/-! ### Lists of computations -/

theorem Steady.collect {xs : List α} {body : α → EvalM (List Item)}
    (h : ∀ x ∈ xs, Steady d (body x) needs id) : Steady d (collect xs body) needs id := by
  induction xs with
  | nil => exact .pure fun c _ a ha => absurd ha List.not_mem_nil
  | cons x xs ih =>
    refine (h x List.mem_cons_self).bind fun here => ?_
    have hrest := ih fun y hy => h y (List.mem_cons_of_mem _ hy)
    refine (hrest.mono (List.subset_append_left _ _)).bind fun rest => .pure fun c hc => ?_
    obtain ⟨hfirst, hlast⟩ := Context.knowsAll_append.mp hc
    exact Context.knowsAll_append.mpr ⟨(Context.knowsAll_append.mp hfirst).2, hlast⟩

theorem Gives.collect {xs : List α} {body : α → EvalM (List Item)} {out : α → List Item}
    (h : ∀ x ∈ xs, Gives d (body x) needs id fun _ _ => out x) :
    Gives d (collect xs body) needs id fun _ _ => xs.flatMap out := by
  induction xs with
  | nil => exact .pure fun c _ a ha => absurd ha List.not_mem_nil
  | cons x xs ih =>
    have hrest := ih fun y hy => h y (List.mem_cons_of_mem _ hy)
    refine (h x List.mem_cons_self).andThen ?_
    refine (hrest.mono (List.subset_append_left _ _)).andThen (.pure fun c hc => ?_)
    obtain ⟨hfirst, hlast⟩ := Context.knowsAll_append.mp hc
    exact Context.knowsAll_append.mpr ⟨(Context.knowsAll_append.mp hfirst).2, hlast⟩

theorem Steady.joined {ms : List (EvalM (List Item))} (h : ∀ m ∈ ms, Steady d m needs id) :
    Steady d (joined ms) needs id := Steady.collect h

/-! ### Small computations -/

theorem Gives.distinct (items : List Item) :
    Gives d (distinct items) items id fun _ _ => Item.withoutRepeats items := by
  intro c hc hitems
  refine ⟨c, runFrom_distinct items c, .refl hc, ?_⟩
  intro a ha
  exact hitems a (Item.mem_withoutRepeats.mp ha)

def noted (env : Env) (e : TraceEvent) (c : Context) : Context :=
  if env.traced then { c with trace := e :: c.trace } else c

theorem emit_eq (env : Env) (e : TraceEvent) : emit env e = modify (noted env e) := by
  unfold emit noted
  cases env.traced <;> rfl

theorem runFrom_traced (env : Env) (t : Term) (count : Nat) (body : EvalM (List Item))
    (c : Context) :
    (traced env t count body).runFrom c =
      match body.runFrom (noted env .enter (noted env (.start t count) c)) with
      | (.ok items, c') => (.ok items, noted env (.finish t items.length) (noted env .exit c'))
      | (.error e, c') => (.error e, noted env .exit c') := by
  have hmodify : ∀ (f : Context → Context) (c : Context),
      (discard (modify f : EvalM Unit).run).run c = (pure ((), f c) : Id (Unit × Context)) :=
    fun _ _ => rfl
  simp only [traced, emit_eq, runFrom, ExceptT.run_mk, StateT.run_bind, hmodify, pure_bind]
  cases body.run.run (noted env .enter (noted env (.start t count) c)) with
  | mk outcome after => cases outcome <;> rfl

theorem extends_noted {c : Context} (hc : c.Truthful d) (env : Env) (e : TraceEvent) :
    c.Extends d (noted env e c) := by
  unfold noted
  split
  · exact ⟨rfl, rfl, rfl, fun _ ha => ha, hc.link, hc.parent⟩
  · exact .refl hc

theorem Gives.emit (env : Env) (e : TraceEvent) :
    Gives d (emit env e) needs (fun _ => []) fun _ _ => () :=
  fun c hc _ => ⟨noted env e c, by rw [emit_eq, runFrom_modify], extends_noted hc env e,
    fun _ ha => absurd ha List.not_mem_nil⟩

/-- A trace around a computation changes nothing but the trace. -/
theorem Steady.traced {env : Env} {t : Term} {count : Nat} {body : EvalM (List Item)}
    (h : Steady d body needs id) : Steady d (traced env t count body) needs id := by
  obtain ⟨out, hout⟩ := h
  refine ⟨out, fun c hc hneeds => ?_⟩
  have hstart := extends_noted hc env (.start t count)
  have henter := hstart.trans (extends_noted hstart.truthful env .enter)
  obtain ⟨c₁, hrun, hextends, hknown⟩ := hout _ henter.truthful (henter.knowsAll hneeds)
  rw [henter.items, henter.index] at hrun hknown
  have hexit := extends_noted hextends.truthful env .exit
  rw [runFrom_traced, hrun]
  cases hresult : out c.items c.index with
  | error e => exact ⟨_, rfl, (henter.trans hextends).trans hexit, fun x hx => by cases hx⟩
  | ok items =>
    have hfinish := hexit.trans (extends_noted hexit.truthful env (.finish t items.length))
    refine ⟨_, rfl, (henter.trans hextends).trans hfinish, fun x hx => ?_⟩
    cases hx
    exact hfinish.knowsAll (hknown items hresult)

section

variable {env : Env} (henv : env.backend = Json.backend d)

include henv in
theorem Gives.children {a : Address} (ha : .node a ∈ needs) (key : Key) :
    Gives d (children env a key) needs (List.map .node) fun _ _ =>
      (env.backend.get a key).map Prod.fst := by
  intro c hc hneeds
  have hfound : ∀ f ∈ env.backend.get a key, d.value.link? f.1 = some ⟨a, f.2⟩ := by
    rw [henv]
    exact fun f hf => Json.link?_of_mem_getAt hf
  obtain ⟨hextends, hknown⟩ := Context.extends_record hc (hneeds a ha) hfound
  refine ⟨c.record a (env.backend.get a key), rfl, hextends, ?_⟩
  intro x hx
  simp only [List.map_map, List.mem_map, Function.comp_apply, Item.node.injEq] at hx
  obtain ⟨f, hf, rfl⟩ := hx
  exact hknown f hf

end

/-- An operation gives its value, and fails or gives nothing if it has none. -/
theorem Steady.settle (env : Env) (outcome : Except ArithmeticFailure Scalar) :
    Steady d (settle env outcome) needs id := by
  cases outcome with
  | ok v => exact .pure fun c _ a ha => by simp at ha
  | error f =>
    rw [EvalM.settle]
    split
    · exact .throw _ _
    · refine (Gives.emit env _).steady.bind fun _ => .pure ?_
      exact fun c _ a ha => absurd ha List.not_mem_nil

end EvalM
end PathQuery
