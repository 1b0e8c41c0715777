import PathQuery.Proofs.Eval.CorrespondingBuiltins
import PathQuery.Proofs.Eval.CorrespondingEvaluation

/-!
# What evaluations log

A term is logged when it starts. Then a level is entered for what it evaluates, and left again before the
term is logged as finished. A term that fails leaves its level too, so a log is well nested with every
outcome. Logs are read here with the oldest event first; an operation without a result is no part of them.
-/

namespace PathQuery

def TraceEvent.rise : TraceEvent → Int
  | enter => 1
  | exit => -1
  | _ => 0

def TraceEvent.isLogged : TraceEvent → Bool
  | noResult _ => false
  | _ => true

namespace Trace

/-- What is logged of some events. -/
def logged (es : List TraceEvent) : List TraceEvent := es.filter TraceEvent.isLogged

theorem logged_append (es es' : List TraceEvent) : logged (es ++ es') = logged es ++ logged es' :=
  List.filter_append es es'

/-- How many more levels have been entered than left. -/
def depth (es : List TraceEvent) : Int := (es.map TraceEvent.rise).sum

@[simp] theorem depth_nil : depth [] = 0 := rfl

@[simp] theorem depth_cons (e : TraceEvent) (es : List TraceEvent) :
    depth (e :: es) = e.rise + depth es := by
  rw [depth, List.map_cons, List.sum_cons, depth]

@[simp] theorem depth_append (es es' : List TraceEvent) :
    depth (es ++ es') = depth es + depth es' := by
  rw [depth, List.map_append, List.sum_append, depth, depth]

/-! ### Balanced logs -/

/-- No level is left that was not entered, and in the end all are left. -/
structure Balanced (es : List TraceEvent) : Prop where
  nonneg : ∀ before, before <+: es → 0 ≤ depth before
  closed : depth es = 0

theorem prefix_append_cases {before es es' : List TraceEvent} (h : before <+: es ++ es') :
    before <+: es ∨ ∃ later, before = es ++ later ∧ later <+: es' := by
  rcases List.prefix_or_prefix_of_prefix h (List.prefix_append es es') with hbefore | ⟨later, rfl⟩
  · exact .inl hbefore
  · exact .inr ⟨later, rfl, (List.prefix_append_right_inj es).mp h⟩

namespace Balanced

variable {es es' : List TraceEvent}

theorem nil : Balanced [] where
  nonneg before h := by
    rw [List.prefix_nil.mp h]
    exact Int.le_refl 0
  closed := rfl

theorem level {e : TraceEvent} (he : e.rise = 0) : Balanced [e] where
  nonneg before h := by
    rcases List.prefix_cons_iff.mp h with rfl | ⟨rest, rfl, hrest⟩
    · exact Int.le_refl 0
    · rw [List.prefix_nil.mp hrest, depth_cons, he]
      exact Int.le_refl 0
  closed := by rw [depth_cons, he, depth_nil, Int.add_zero]

theorem append (h : Balanced es) (h' : Balanced es') : Balanced (es ++ es') where
  nonneg before hbefore := by
    rcases prefix_append_cases hbefore with hbefore | ⟨later, rfl, hlater⟩
    · exact h.nonneg before hbefore
    · rw [depth_append, h.closed, Int.zero_add]
      exact h'.nonneg later hlater
  closed := by rw [depth_append, h.closed, h'.closed, Int.add_zero]

theorem inside (h : Balanced es) : Balanced (.enter :: (es ++ [.exit])) where
  nonneg before hbefore := by
    rcases List.prefix_cons_iff.mp hbefore with rfl | ⟨rest, rfl, hrest⟩
    · exact Int.le_refl 0
    rw [depth_cons]
    rcases List.prefix_concat_iff.mp hrest with rfl | hrest
    · rw [depth_append, h.closed]
      decide
    · have hnonneg := h.nonneg rest hrest
      exact Int.add_nonneg (by decide) hnonneg
  closed := by
    rw [depth_cons, depth_append, h.closed]
    rfl

end Balanced

/-! ### Orderly logs -/

/-- A term that starts enters a level of its own next, and that level is left again. -/
def Starts (es : List TraceEvent) : Prop :=
  ∀ before t n after, es = before ++ .start t n :: after →
    ∃ inner rest, after = .enter :: (inner ++ .exit :: rest) ∧ Balanced inner

/-- A term that finishes has just left a level of its own, and stands at the depth it started at. -/
def Finishes (es : List TraceEvent) : Prop :=
  ∀ before t n after, es = before ++ .finish t n :: after →
    ∃ earlier count inner, before = earlier ++ .start t count :: .enter :: (inner ++ [.exit]) ∧
      Balanced inner ∧ depth before = depth earlier

/-- The levels of a log are balanced, and each term is logged next to a level of its own. -/
structure Orderly (es : List TraceEvent) : Prop where
  balanced : Balanced es
  starts : Starts es
  finishes : Finishes es

theorem append_eq_split {es es' before after : List TraceEvent} {e : TraceEvent}
    (h : es ++ es' = before ++ e :: after) :
    (∃ between, es = before ++ e :: between ∧ after = between ++ es') ∨
      ∃ between, before = es ++ between ∧ es' = between ++ e :: after := by
  rcases List.append_eq_append_iff.mp h with hright | ⟨between, rfl, hafter⟩
  · exact .inr hright
  · rcases List.cons_eq_append_iff.mp hafter with ⟨rfl, hes'⟩ | ⟨between, rfl, rfl⟩
    · exact .inr ⟨[], by rw [List.append_nil, List.append_nil], hes'⟩
    · exact .inl ⟨between, rfl, rfl⟩

section

variable {es es' : List TraceEvent}

theorem Starts.of_not_mem (h : ∀ t n, .start t n ∉ es) : Starts es := by
  rintro before t n after rfl
  exact absurd (List.mem_append_right before List.mem_cons_self) (h t n)

theorem Finishes.of_not_mem (h : ∀ t n, .finish t n ∉ es) : Finishes es := by
  rintro before t n after rfl
  exact absurd (List.mem_append_right before List.mem_cons_self) (h t n)

theorem Starts.append (h : Starts es) (h' : Starts es') : Starts (es ++ es') := by
  intro before t n after heq
  rcases append_eq_split heq with ⟨between, hes, rfl⟩ | ⟨between, rfl, hes'⟩
  · obtain ⟨inner, rest, rfl, hinner⟩ := h before t n between hes
    exact ⟨inner, rest ++ es', by simp, hinner⟩
  · exact h' between t n after hes'

theorem Finishes.append (h : Finishes es) (h' : Finishes es') : Finishes (es ++ es') := by
  intro before t n after heq
  rcases append_eq_split heq with ⟨between, hes, rfl⟩ | ⟨between, rfl, hes'⟩
  · exact h before t n between hes
  · obtain ⟨earlier, count, inner, rfl, hinner, hdepth⟩ := h' between t n after hes'
    refine ⟨es ++ earlier, count, inner, (List.append_assoc _ _ _).symm, hinner, ?_⟩
    rw [depth_append es, depth_append es, hdepth]

end

/-- What is logged of a term when its level has been left: a term that fails does not finish. -/
def ending (t : Term) : Except EvalError (List Item) → List TraceEvent
  | .ok found => [.finish t found.length]
  | .error _ => []

theorem balanced_ending (t : Term) (outcome : Except EvalError (List Item)) :
    Balanced (ending t outcome) := by
  cases outcome with
  | ok found => exact .level rfl
  | error e => exact .nil

namespace Orderly

variable {es es' : List TraceEvent}

theorem append (h : Orderly es) (h' : Orderly es') : Orderly (es ++ es') where
  balanced := h.balanced.append h'.balanced
  starts := h.starts.append h'.starts
  finishes := h.finishes.append h'.finishes

theorem nil : Orderly [] where
  balanced := .nil
  starts := .of_not_mem fun _ _ => List.not_mem_nil
  finishes := .of_not_mem fun _ _ => List.not_mem_nil

theorem term (h : Orderly es) (t : Term) (count : Nat) (outcome : Except EvalError (List Item)) :
    Orderly (.start t count :: .enter :: (es ++ .exit :: ending t outcome)) where
  balanced := by
    have hlevel := h.balanced.inside.append (balanced_ending t outcome)
    have hterm := (Balanced.level (e := .start t count) rfl).append hlevel
    simpa using hterm
  starts := by
    have hending : Starts (.exit :: ending t outcome) :=
      .of_not_mem fun t' n => by cases outcome <;> simp [ending]
    have henter : Starts [.enter] := .of_not_mem fun t' n => by simp
    have hlevel := henter.append (h.starts.append hending)
    intro before t' n after heq
    rcases List.cons_eq_append_iff.mp heq with ⟨_, hafter⟩ | ⟨before', _, hrest⟩
    · cases hafter
      exact ⟨es, ending t outcome, rfl, h.balanced⟩
    · exact hlevel before' t' n after hrest
  finishes := by
    have hstart : Finishes [.start t count, .enter] := .of_not_mem fun t' n => by simp
    have hexit : Finishes [.exit] := .of_not_mem fun t' n => by simp
    have hlevel := hstart.append (h.finishes.append hexit)
    intro before t' n after heq
    have hsplit : ([.start t count, .enter] ++ (es ++ [.exit])) ++ ending t outcome =
        before ++ .finish t' n :: after := by
      rw [← heq]
      simp
    rcases append_eq_split hsplit with ⟨between, heq, _⟩ | ⟨between, rfl, hending⟩
    · exact hlevel before t' n between heq
    · cases outcome with
      | error e => simp [ending] at hending
      | ok found =>
        -- the line of the term itself, behind its level
        obtain ⟨rfl, hfinish⟩ : between = [] ∧ TraceEvent.finish t found.length = .finish t' n := by
          rcases List.cons_eq_append_iff.mp hending with ⟨rfl, hcons⟩ | ⟨_, _, hnil⟩
          · exact ⟨rfl, (List.cons.inj hcons).1.symm⟩
          · simp at hnil
        cases hfinish
        refine ⟨[], count, es, by simp, h.balanced, ?_⟩
        have hclosed := h.balanced.inside.closed
        simpa [TraceEvent.rise] using hclosed

end Orderly

end Trace

/-! ### Computations -/

namespace EvalM

variable {α β : Type}

/-- From every context, what the computation logs is orderly. -/
def Logs (m : EvalM α) : Prop :=
  ∀ c : Context, ∃ es, Trace.logged (m.runFrom c).2.trace.reverse =
    Trace.logged c.trace.reverse ++ es ∧ Trace.Orderly es

theorem noted_of_traced {env : Env} (htraced : env.traced = true) (e : TraceEvent) (c : Context) :
    noted env e c = { c with trace := e :: c.trace } := by
  rw [noted, htraced, if_pos rfl]

theorem logged_traced {env : Env} (htraced : env.traced = true) {body : EvalM (List Item)}
    (h : Logs body) (t : Term) (count : Nat) (c : Context) :
    let ran := (traced env t count body).runFrom c
    ∃ inner, Trace.Orderly inner ∧ Trace.logged ran.2.trace.reverse = Trace.logged c.trace.reverse ++
      .start t count :: .enter :: (inner ++ .exit :: Trace.ending t ran.1) := by
  intro ran
  obtain ⟨inner, hinner, horderly⟩ := h (noted env .enter (noted env (.start t count) c))
  refine ⟨inner, horderly, ?_⟩
  simp only [ran, runFrom_traced]
  cases hrun : body.runFrom (noted env .enter (noted env (.start t count) c)) with
  | mk outcome after =>
    rw [hrun] at hinner
    simp only [noted_of_traced htraced, List.reverse_cons, Trace.logged_append] at hinner ⊢
    cases outcome with
    | ok found =>
      simp only [List.reverse_cons, Trace.logged_append, hinner, List.append_assoc]
      rfl
    | error e =>
      simp only [List.reverse_cons, Trace.logged_append, hinner, List.append_assoc]
      rfl

namespace Logs

theorem silent {m : EvalM α} (h : ∀ c : Context, (m.runFrom c).2.trace = c.trace) : Logs m :=
  fun c => ⟨[], by rw [h c, List.append_nil], .nil⟩

theorem bind {m : EvalM α} {k : α → EvalM β} (hm : Logs m) (hk : ∀ x, Logs (k x)) :
    Logs (m >>= k) := by
  intro c
  obtain ⟨es, htrace, hes⟩ := hm c
  rw [runFrom_bind]
  cases hrun : m.runFrom c with
  | mk outcome after =>
    rw [hrun] at htrace
    cases outcome with
    | error e => exact ⟨es, htrace, hes⟩
    | ok x =>
      obtain ⟨es', htrace', hes'⟩ := hk x after
      refine ⟨es ++ es', ?_, hes.append hes'⟩
      rw [← List.append_assoc, ← htrace]
      exact htrace'

theorem handOut (found : List (Address × List (Address × Place))) :
    Logs (modify fun c => found.foldl (fun c f => c.record f.1 f.2) c) := by
  refine silent fun c => ?_
  rw [runFrom_modify]
  induction found generalizing c with
  | nil => rfl
  | cons f found ih => exact ih (c.record f.1 f.2)

theorem settle {env : Env} (htraced : env.traced = true)
    (outcome : Except ArithmeticFailure Scalar) : Logs (EvalM.settle env outcome) := by
  cases outcome with
  | ok v => exact silent fun _ => rfl
  | error f =>
    rw [EvalM.settle, emit_eq]
    split
    · exact silent fun _ => rfl
    · refine bind (fun c => ⟨[], ?_, .nil⟩) fun _ => silent fun _ => rfl
      rw [runFrom_modify, noted_of_traced htraced, List.reverse_cons, Trace.logged_append]
      rfl

theorem traced {env : Env} (htraced : env.traced = true) {m : EvalM (List Item)} (t : Term)
    (count : Nat) (h : Logs m) : Logs (EvalM.traced env t count m) := by
  intro c
  obtain ⟨inner, horderly, htrace⟩ := logged_traced htraced h t count c
  exact ⟨_, htrace, horderly.term t count _⟩

/-- That logs are orderly is a correspondence of each computation by itself. -/
def correspondence (env : Env) (htraced : env.traced = true) :
    Correspondence env env.settings env.traced where
  rel m _ := Logs m
  inner m _ := Logs m
  unknown := True
  agrees := env.agrees_settings
  pure _ := silent fun _ => rfl
  bind := bind
  read _ := silent fun _ => rfl
  handOut := handOut
  distinct items := silent fun c => by rw [runFrom_distinct]
  settle := settle htraced
  traced := traced htraced
  unregistered _ _ := silent fun _ => rfl
  inner_of_rel h := h
  inner_bind := bind
  inner_index _ := silent fun _ => rfl
  within _ h := fun c => h _

end Logs

variable {env : Env} {registry : Registry} (htraced : env.traced = true)
  (hcovers : (Logs.correspondence env htraced).Covers registry)

include hcovers

theorem logged_eval (t : Term) (items : List Item) (c : Context) :
    let ran := (t.eval env registry items).runFrom c
    ∃ inner, Trace.Orderly inner ∧ Trace.logged ran.2.trace.reverse = Trace.logged c.trace.reverse ++
      .start t items.length :: .enter :: (inner ++ .exit :: Trace.ending t ran.1) := by
  obtain ⟨body, _, heval, _, hbody⟩ :=
    t.eval_traces (Logs.correspondence env htraced) hcovers (.inl trivial) items
  rw [heval]
  exact logged_traced htraced hbody t items.length c

theorem selectTerms_logs (ts : List Term) (items : List Item) :
    Logs (selectTerms env registry ts items) :=
  selectTerms_corresponds (Logs.correspondence env htraced) hcovers ts (.inl trivial) items

end EvalM
end PathQuery
