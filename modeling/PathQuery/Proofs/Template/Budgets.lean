import PathQuery.Proofs.Template.Ending
import PathQuery.Proofs.Template.Ledger

/-!
# The budgets of a rendering

The sink's bytes, the visits of loops and the depth of includes are each kept under a bound of their
own. At every moment what has been spent can be read off the acts so far and the tasks that are left.
A task that would go over a bound does none of its acts: nothing more is done, and the outcome says
which bound it was.
-/

namespace PathQuery

def Settings.bound (s : Settings) : Limit → Nat
  | .iterations => s.maxIterations
  | .includeDepth => s.maxIncludeDepth
  | .outputSize => s.maxOutputSize

namespace Renderer

open RenderM

/-! ### Prices -/

def Task.isClose : Task → Bool
  | close => true
  | _ => false

/-- How many included texts end in some tasks, one inside the other. -/
def opened (ts : List Task) : Nat := ts.countP Task.isClose

/-- What the first bit of a task needs of what is bounded: the bytes it is to write, the item it is
to visit or the text it is to include. -/
def Task.price : Task → Limit → Nat
  | .write w, .outputSize => w.text.utf8ByteSize
  | .visits _ _ _ (_ :: _), .iterations => 1
  | .part _ (.insertion _), .includeDepth => 1
  | _, _ => 0

/-- The tasks that need something. -/
inductive Task.Priced : Task → Limit → Prop where
  | write (w : Write) : Priced (.write w) .outputSize
  | visit (here : Frame) (body : List Part) (i : Nat) (item : Item) (items : List Item) :
      Priced (.visits here body i (item :: items)) .iterations
  | insertion (here : Frame) (name : String) : Priced (.part here (.insertion name)) .includeDepth

theorem Task.priced_of_pos {t : Task} {kind : Limit} (h : 0 < t.price kind) : t.Priced kind := by
  unfold price at h
  split at h
  · exact .write _
  · exact .visit _ _ _ _ _
  · exact .insertion _ _
  · exact absurd h (Nat.lt_irrefl 0)

namespace Moment

/-- What has been spent of what is bounded: the bytes that the sink has accepted, the items that
loops have visited, and the included texts that are inside each other now. -/
def spent (m : Moment) : Limit → Nat
  | .iterations => m.acts.countP Act.isVisit
  | .includeDepth => opened m.tasks
  | .outputSize => bytesOf (m.acts.filterMap Act.write?)

/-- The next task needs more than is left of what is bounded. -/
def Exceeds (m : Moment) (kind : Limit) (bound : Nat) : Prop :=
  m.failure = none ∧ ∃ t rest, m.tasks = t :: rest ∧ bound < m.spent kind + t.price kind

/-- The state agrees with what outsiders have seen. -/
structure Accounted (m : Moment) : Prop where
  writes : m.state.writes = m.acts.filterMap Act.write?
  written : m.state.written = m.spent .outputSize
  iterations : m.state.iterations = m.spent .iterations
  calls : m.state.calls = m.acts.filterMap Act.call?

end Moment

/-! ### Includes inside each other -/

/-- Where `n` included texts are open, a task may include as many more as its frame says. -/
def Task.Fits (bound n : Nat) : Task → Prop
  | .parts here _ | .part here _ | .visits here _ _ _ => here.remaining + n = bound
  | .ask here _ _ => here.remaining + n + 1 = bound
  | .close => n < bound
  | .write _ | .leave _ => True

def Nested (bound : Nat) : List Task → Prop
  | [] => True
  | t :: rest => t.Fits bound (opened rest) ∧ Nested bound rest

theorem opened_close (rest : List Task) : opened (.close :: rest) = opened rest + 1 :=
  List.countP_cons_of_pos rfl

theorem opened_of_not_isClose {t : Task} (h : t.isClose = false) (rest : List Task) :
    opened (t :: rest) = opened rest :=
  List.countP_cons_of_neg (by simp [h])

theorem Nested.opened_le {bound : Nat} {ts : List Task} (h : Nested bound ts) :
    opened ts ≤ bound := by
  induction ts with
  | nil => exact Nat.zero_le _
  | cons t rest ih =>
    cases t with
    | close => exact opened_close rest ▸ h.1
    | _ => exact ih h.2

theorem Nested.of_leaves {bound : Nat} {t : Task} {more rest : List Task} (hleaves : t.Leaves more)
    (h : Nested bound (t :: rest)) : Nested bound (more ++ rest) := by
  obtain ⟨hfits, hrest⟩ := h
  cases hleaves with
  | nothing => exact hrest
  | inTurn => exact ⟨hfits, hfits, hrest⟩
  | text => exact ⟨trivial, hrest⟩
  | value => exact ⟨trivial, hrest⟩
  | @allowed here n hremaining includer name =>
    refine ⟨?_, hrest⟩
    change here.remaining + opened rest = bound at hfits
    change n + opened rest + 1 = bound
    omega
  | loop => exact ⟨hfits, trivial, hrest⟩
  | yes => exact ⟨hfits, hrest⟩
  | no => exact ⟨hfits, hrest⟩
  | skipped => exact ⟨hfits, hrest⟩
  | rendered => exact ⟨hfits, hfits, hrest⟩
  | included here includer call location ps =>
    simp only [Task.Fits] at hfits
    refine ⟨?_, ?_, hrest⟩
    · change here.remaining + opened (.close :: rest) = bound
      rw [opened_close]
      omega
    · show opened rest < bound
      omega

/-! ### What every moment keeps -/

/-- The ledger is that of the acts so far, no count is above its bound, and each task fits. -/
structure Moment.Kept (r : Renderer) (m : Moment) : Prop where
  ledger : Ledger.ofState m.state = Ledger.empty.afterAll m.acts
  within : (Ledger.ofState m.state).Within r.config.settings
  nested : Nested r.config.settings.maxIncludeDepth m.tasks

namespace Moment

variable {r : Renderer} {m m' : Moment}

theorem kept_start (r : Renderer) (base : Option String) (ps : List Part) :
    (start r base ps).Kept r where
  ledger := rfl
  within := Ledger.within_empty _
  nested := ⟨Nat.add_zero _, trivial⟩

theorem Kept.step (h : m.Kept r) (hstep : Step r m m') : m'.Kept r := by
  cases hstep with
  | @done t rest more s s' acts hrun =>
    have hledger := t.ledger_run r s
    have hwithin := t.within_run r h.within
    rw [hrun] at hledger hwithin
    refine ⟨?_, hwithin, h.nested.of_leaves (t.run_yields r s more s' hrun)⟩
    rw [hledger, h.ledger, ← Ledger.afterAll_append]
    rfl
  | @failed t rest s s' acts e hrun =>
    have hledger := t.ledger_run r s
    have hwithin := t.within_run r h.within
    rw [hrun] at hledger hwithin
    refine ⟨?_, hwithin, h.nested.2⟩
    rw [hledger, h.ledger, ← Ledger.afterAll_append]
    rfl
  | unwound e t rest s acts =>
    refine ⟨?_, ?_, h.nested.2⟩
    · rw [t.ledger_unwind]
      exact h.ledger
    · rw [t.ledger_unwind]
      exact h.within

theorem Kept.leads (h : m.Kept r) (hleads : m.Leads r m') : m'.Kept r := by
  induction hleads with
  | refl => exact h
  | tail _ hstep ih => exact ih.step hstep

theorem Kept.accounted (h : m.Kept r) : m.Accounted := by
  obtain ⟨hwrites, hwritten, hiterations, hcalls⟩ := Ledger.empty_afterAll m.acts
  rw [← h.ledger] at hwrites hwritten hiterations hcalls
  exact ⟨hwrites, hwritten, hiterations, hcalls⟩

theorem Kept.spent_le (h : m.Kept r) (kind : Limit) :
    m.spent kind ≤ r.config.settings.bound kind := by
  cases kind with
  | iterations => exact h.accounted.iterations ▸ h.within.iterations
  | includeDepth => exact h.nested.opened_le
  | outputSize => exact h.accounted.written ▸ h.within.written

/-! ### Refusals -/

/-- A task that needs more than is left fails at once, with no act and no change. -/
theorem Kept.run_refused {t : Task} {rest : List Task} (h : m.Kept r) (htasks : m.tasks = t :: rest)
    {kind : Limit} (hover : r.config.settings.bound kind < m.spent kind + t.price kind) :
    (t.run r).runFrom m.state = (.error (.limit kind (r.config.settings.bound kind)), m.state) ∧
      t.acts r false = [] := by
  have hspent := h.spent_le kind
  have hprice : 0 < t.price kind := by omega
  cases Task.priced_of_pos hprice with
  | write w =>
    refine ⟨?_, rfl⟩
    rw [← h.accounted.written] at hover
    exact runFrom_bind_error (write_refused hover) _
  | visit here body i item items =>
    refine ⟨?_, rfl⟩
    rw [← h.accounted.iterations] at hover
    exact runFrom_bind_error (tick_refused (Nat.le_of_lt_succ hover)) _
  | insertion here name =>
    refine ⟨?_, rfl⟩
    have hnested := h.nested
    rw [htasks] at hnested
    have hfits : here.remaining + opened rest = r.config.settings.maxIncludeDepth := hnested.1
    have hover' : r.config.settings.maxIncludeDepth < opened m.tasks + 1 := hover
    rw [htasks, opened_of_not_isClose rfl] at hover'
    have hzero : here.remaining = 0 := by omega
    rw [Task.run, hzero]
    rfl

theorem resume_failed (e : RenderError) (ts : List Task) (s : RenderState) :
    (resume r (some e) ts s).1 = .error e := by
  induction ts generalizing s with
  | nil => rfl
  | cons t ts ih => exact ih (t.unwind s)

/-- What would go over a bound is not done. Nothing more is done, and the rendering fails with the
limit. -/
theorem Kept.refused (h : m.Kept r) {kind : Limit}
    (hexceeds : m.Exceeds kind (r.config.settings.bound kind)) :
    (m.final r).1 = .error (.limit kind (r.config.settings.bound kind)) ∧
      ∀ m', m.Leads r m' → m'.acts = m.acts := by
  obtain ⟨hrunning, t, rest, htasks, hover⟩ := hexceeds
  obtain ⟨hrun, hacts⟩ := h.run_refused htasks hover
  obtain ⟨failure, tasks, s, acts⟩ := m
  subst hrunning htasks
  have hstep : Step r ⟨none, t :: rest, s, acts⟩
      ⟨some (.limit kind (r.config.settings.bound kind)), rest, s, t.acts r false ++ acts⟩ :=
    .failed hrun
  rw [hacts] at hstep
  refine ⟨?_, fun m' hleads => ?_⟩
  · rw [← hstep.final_eq]
    exact resume_failed _ _ _
  · rcases hleads.cases_head with rfl | ⟨m₁, hfirst, hlater⟩
    · rfl
    · cases hfirst with
      | done hrun' =>
        rw [hrun] at hrun'
        cases hrun'
      | failed hrun' =>
        rw [hrun] at hrun'
        cases hrun'
        rw [hacts] at hlater
        exact (Leads.of_failure hlater rfl).2

end Moment

end Renderer

/-! ### Templates -/

section

open Renderer

variable {t : Template} {root : Root} {env : Env}

theorem Template.render_eq (henv : t.config.open? root = .ok env) (sink : Sink) :
    t.render root sink =
      ⟨((renderTop ⟨env, t.config, sink, true⟩ t.location t.parts).runFrom .initial).1,
        ((renderTop ⟨env, t.config, sink, true⟩ t.location t.parts).runFrom .initial).2⟩ := by
  rw [render, henv]

/-- The budgets of a rendering hold at every moment: what the state counts is what outsiders have
seen, no more is spent than is allowed, and what needs more than is left is not done but fails with
the limit. The moments come to an end with the outcome and the state of the rendering. -/
theorem Template.render_within_budgets (henv : t.config.open? root = .ok env) (sink : Sink) :
    let r : Renderer := ⟨env, t.config, sink, true⟩
    let first := Moment.start r t.location t.parts
    let bound := t.config.settings.bound
    (∃ m, first.Leads r m ∧ m.tasks = [] ∧ t.render root sink = ⟨outcomeOf m.failure, m.state⟩) ∧
      ∀ m, first.Leads r m →
        m.Accounted ∧ m.state.deepest ≤ bound .includeDepth ∧ (∀ kind, m.spent kind ≤ bound kind) ∧
          ∀ kind, m.Exceeds kind (bound kind) →
            (t.render root sink).outcome = .error (.limit kind (bound kind)) ∧
              ∀ m', m.Leads r m' → m'.acts = m.acts := by
  intro r first bound
  refine ⟨?_, fun m hleads => ?_⟩
  · obtain ⟨m, hleads, hdone, hfinal⟩ := renderTop_leads (r := r) t.location t.parts
    refine ⟨m, hleads, hdone, ?_⟩
    rw [render_eq henv, hfinal]
  · have hkept := (Moment.kept_start r t.location t.parts).leads hleads
    refine ⟨hkept.accounted, hkept.within.deepest, hkept.spent_le, fun kind hexceeds => ?_⟩
    obtain ⟨houtcome, hacts⟩ := hkept.refused hexceeds
    refine ⟨?_, hacts⟩
    rw [hleads.final_eq, Moment.final_start] at houtcome
    rw [render_eq henv]
    exact houtcome

/-- Two bytes are not written where one is allowed. -/
theorem Template.render_within_budgets_text :
    let t : Template := ⟨none, [.text "ab"], Configuration.default.withMaxOutputSize 1⟩
    let d : Json.Document := ⟨.null, trivial⟩
    t.config.open? (.json d) = .ok (t.config.env (Json.backend d)) ∧
      (t.render (.json d) .unlimited).outcome = .error (.limit .outputSize 1) := by
  intro t d
  have henv : t.config.open? (.json d) = .ok (t.config.env (Json.backend d)) := rfl
  refine ⟨henv, ?_⟩
  obtain ⟨_, hmoments⟩ := t.render_within_budgets henv .unlimited
  let r : Renderer := ⟨t.config.env (Json.backend d), t.config, .unlimited, true⟩
  let here : Frame := ⟨none, [.node []], 16⟩
  let m : Moment := ⟨none, [.write ⟨"ab", false⟩, .parts here []], .initial, []⟩
  have hparts : ((Task.parts here t.parts).run r).runFrom .initial =
      (.ok [.part here (.text "ab"), .parts here []], .initial) := rfl
  have htext : ((Task.part here (.text "ab")).run r).runFrom .initial =
      (.ok [.write ⟨"ab", false⟩], .initial) := rfl
  have hleads : (Moment.start r none t.parts).Leads r m := .tail (.single (.done hparts)) (.done htext)
  have hexceeds : m.Exceeds .outputSize 1 := ⟨rfl, _, _, rfl, by decide⟩
  exact ((hmoments m hleads).2.2.2 .outputSize hexceeds).1

end

end PathQuery
