import PathQuery.Proofs.Template.Budgets

/-!
# Limits that are met

A rendering fails with a limit only if it comes to a moment at which the next task needs more than is
left. What just fits is done.
-/

namespace PathQuery
namespace Renderer

open RenderM

/-! ### Failures that are no limits -/

def Unlimited {α : Type} (m : RenderM α) : Prop :=
  ∀ s e s', m.runFrom s = (.error e, s') → e.isLimit = false

namespace Unlimited

variable {α β : Type}

theorem pure (x : α) : Unlimited (Pure.pure x : RenderM α) := by
  rintro s e s' hrun
  cases hrun

theorem throw {e : RenderError} (h : e.isLimit = false) : Unlimited (throw e : RenderM α) := by
  rintro s e' s' hrun
  cases hrun
  exact h

theorem bind {m : RenderM α} {k : α → RenderM β} (hm : Unlimited m) (hk : ∀ x, Unlimited (k x)) :
    Unlimited (m >>= k) := by
  rintro s e s' hrun
  rw [runFrom_bind] at hrun
  cases hfirst : m.runFrom s with
  | mk outcome s₁ =>
    rw [hfirst] at hrun
    cases outcome with
    | ok x => exact hk x s₁ e s' hrun
    | error e' =>
      cases hrun
      exact hm s e s' hfirst

theorem update (f : RenderState → RenderState) : Unlimited (modify f : RenderM Unit) := by
  rintro s e s' hrun
  cases hrun

theorem get : Unlimited (MonadState.get : RenderM RenderState) := by
  rintro s e s' hrun
  cases hrun

theorem set (s₀ : RenderState) : Unlimited (MonadStateOf.set s₀ : RenderM Unit) := by
  rintro s e s' hrun
  cases hrun

theorem evaluate (m : EvalM α) : Unlimited (RenderM.evaluate m) := by
  rintro s e s' hrun
  change (((m.runFrom s.context).1.mapError RenderError.eval), _) = _ at hrun
  cases houtcome : (m.runFrom s.context).1 with
  | ok x =>
    rw [houtcome] at hrun
    cases hrun
  | error e' =>
    rw [houtcome] at hrun
    cases hrun
    rfl

theorem ask (includer : Includer) (depth : Nat) (call : IncludeCall) :
    Unlimited (RenderM.ask includer depth call) := by
  refine get.bind fun s => (set _).bind fun _ => ?_
  split
  · exact .pure _
  · exact .throw rfl

theorem partsOf (r : Renderer) (name : String) (found : Included) :
    Unlimited (r.partsOf name found) := by
  refine get.bind fun s => ?_
  split
  · exact .pure _
  · split
    · exact .throw rfl
    · split
      · exact (set _).bind fun _ => .pure _
      · exact .pure _

end Unlimited

/-- A part fails with a limit only where it is an include that is too deep. -/
theorem Task.unlimited_part (r : Renderer) (here : Frame) (p : Part)
    (h : ∀ name, p = .insertion name → here.remaining ≠ 0) : Unlimited ((part here p).run r) := by
  cases p with
  | text s => exact .pure _
  | value terms =>
    refine (Unlimited.evaluate _).bind fun items => ?_
    split
    · exact .pure _
    · exact .pure _
  | insertion name =>
    rw [run]
    split
    · rename_i hzero
      exact absurd hzero (h name rfl)
    · split
      · exact .throw rfl
      · exact .pure _
  | loop subject body =>
    exact (Unlimited.evaluate _).bind fun items => Unlimited.get.bind fun s =>
      (Unlimited.set _).bind fun _ => .pure _
  | choice guard yes no =>
    refine (Unlimited.evaluate _).bind fun items => ?_
    split
    · exact .pure _
    · exact .pure _

namespace Moment

variable {r : Renderer} {m m' : Moment}

section

variable {rest : List Task} {s s' : RenderState} {acts : List Act} {kind : Limit} {bound : Nat}

theorem Kept.exceeds_of_insertion {here : Frame} {name : String}
    (h : Kept r ⟨none, .part here (.insertion name) :: rest, s, acts⟩) (hzero : here.remaining = 0)
    (hrun : ((Task.part here (.insertion name)).run r).runFrom s = (.error (.limit kind bound), s')) :
    bound = r.config.settings.bound kind ∧
      Exceeds ⟨none, .part here (.insertion name) :: rest, s, acts⟩ kind bound := by
  rw [Task.run, hzero] at hrun
  cases hrun
  refine ⟨rfl, rfl, _, _, rfl, ?_⟩
  have hfits : here.remaining + opened rest = r.config.settings.maxIncludeDepth := h.nested.1
  change r.config.settings.maxIncludeDepth < opened (.part here (.insertion name) :: rest) + 1
  rw [opened_of_not_isClose rfl]
  omega

theorem Kept.exceeds_of_write {w : Write} (h : Kept r ⟨none, .write w :: rest, s, acts⟩)
    (hrun : ((Task.write w).run r).runFrom s = (.error (.limit kind bound), s')) :
    bound = r.config.settings.bound kind ∧
      Exceeds ⟨none, .write w :: rest, s, acts⟩ kind bound := by
  rw [Task.run] at hrun
  rcases write_cases r.sink r.config.settings.maxOutputSize w s with
    ⟨_, hwrite⟩ | ⟨hover, hwrite⟩ | hwrite
  · rw [runFrom_bind_ok hwrite] at hrun
    cases hrun
  · rw [runFrom_bind_error hwrite] at hrun
    cases hrun
    rw [h.accounted.written] at hover
    exact ⟨rfl, rfl, _, _, rfl, hover⟩
  · rw [runFrom_bind_error hwrite] at hrun
    cases hrun

theorem Kept.exceeds_of_visit {here : Frame} {body : List Part} {i : Nat} {item : Item}
    {items : List Item} (h : Kept r ⟨none, .visits here body i (item :: items) :: rest, s, acts⟩)
    (hrun : ((Task.visits here body i (item :: items)).run r).runFrom s =
      (.error (.limit kind bound), s')) :
    bound = r.config.settings.bound kind ∧
      Exceeds ⟨none, .visits here body i (item :: items) :: rest, s, acts⟩ kind bound := by
  rw [Task.run] at hrun
  rcases tick_cases r.config.settings.maxIterations s with ⟨_, htick⟩ | ⟨hspent, htick⟩
  · rw [runFrom_bind_ok htick] at hrun
    split at hrun
    · cases hrun
    · cases hrun
  · rw [runFrom_bind_error htick] at hrun
    cases hrun
    rw [h.accounted.iterations] at hspent
    exact ⟨rfl, rfl, _, _, rfl, Nat.lt_succ_of_le hspent⟩

theorem Kept.exceeds_of_run {t : Task} (h : Kept r ⟨none, t :: rest, s, acts⟩)
    (hrun : (t.run r).runFrom s = (.error (.limit kind bound), s')) :
    bound = r.config.settings.bound kind ∧ Exceeds ⟨none, t :: rest, s, acts⟩ kind bound := by
  -- a task whose failures are no limits has not failed like this
  have hnot : ¬ Unlimited (t.run r) := fun hunlimited => by
    have hlimit := hunlimited s _ s' hrun
    cases hlimit
  cases t with
  | parts here ps =>
    refine absurd ?_ hnot
    cases ps with
    | nil => exact .pure _
    | cons p ps => exact .pure _
  | part here p =>
    by_cases hdeep : ∃ name, p = .insertion name ∧ here.remaining = 0
    · obtain ⟨name, rfl, hzero⟩ := hdeep
      exact h.exceeds_of_insertion hzero hrun
    · refine absurd (Task.unlimited_part r here p fun name hp hzero => ?_) hnot
      exact hdeep ⟨name, hp, hzero⟩
  | write w => exact h.exceeds_of_write hrun
  | visits here body i items =>
    cases items with
    | nil => exact absurd (.pure _) hnot
    | cons item items => exact h.exceeds_of_visit hrun
  | ask here includer call =>
    refine absurd ?_ hnot
    exact (Unlimited.ask includer _ call).bind fun found =>
      (Unlimited.partsOf r call.name found).bind fun ps => .pure _
  | close => exact absurd (.pure _) hnot
  | leave saved => exact absurd ((Unlimited.update _).bind fun _ => .pure _) hnot

end

/-- A limit is met only where a task needs more than is left. -/
theorem Kept.exceeds_of_limit (h : m.Kept r) (hrunning : m.failure = none) (hleads : m.Leads r m')
    {kind : Limit} {bound : Nat} (hlimit : m'.failure = some (.limit kind bound)) :
    bound = r.config.settings.bound kind ∧
      ∃ before, m.Leads r before ∧ before.Leads r m' ∧ before.Exceeds kind bound := by
  induction hleads with
  | refl =>
    rw [hrunning] at hlimit
    cases hlimit
  | tail hearlier hstep ih =>
    cases hstep with
    | done hrun => cases hlimit
    | failed hrun =>
      cases hlimit
      obtain ⟨hbound, hexceeds⟩ := (h.leads hearlier).exceeds_of_run hrun
      exact ⟨hbound, _, hearlier, .single (.failed hrun), hexceeds⟩
    | unwound e t rest s acts =>
      obtain ⟨hbound, before, hbefore, hlater, hexceeds⟩ := ih hlimit
      exact ⟨hbound, before, hbefore, hlater.tail (.unwound e t rest s acts), hexceeds⟩

end Moment

end Renderer

/-! ### Templates -/

open Renderer

variable {t : Template} {root : Root} {env : Env}

/-- A rendering that fails with a limit has come to a moment at which the next task needed more than
was left. -/
theorem Template.exceeds_of_limit (henv : t.config.open? root = .ok env) {sink : Sink} {kind : Limit}
    {bound : Nat} (h : (t.render root sink).outcome = .error (.limit kind bound)) :
    let r : Renderer := ⟨env, t.config, sink, true⟩
    bound = t.config.settings.bound kind ∧
      ∃ m, (Moment.start r t.location t.parts).Leads r m ∧ m.Exceeds kind bound := by
  intro r
  have hkept := Moment.kept_start r t.location t.parts
  obtain ⟨m, hleads, _, hfinal⟩ := renderTop_leads (r := r) t.location t.parts
  rw [render_eq henv, hfinal] at h
  have houtcome : outcomeOf m.failure = .error (.limit kind bound) := h
  have hlimit : m.failure = some (.limit kind bound) := by
    rw [← failureOf_outcomeOf m.failure, houtcome]
    rfl
  obtain ⟨hbound, before, hbefore, _, hexceeds⟩ := hkept.exceeds_of_limit rfl hleads hlimit
  exact ⟨hbound, before, hbefore, hexceeds⟩

end PathQuery
