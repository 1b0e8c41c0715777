import Mathlib.Order.Bounds.Defs
import PathQuery.Proofs.Template.Budgets
import PathQuery.Proofs.Template.Truncation

/-!
# What a rendering has used

The state a rendering ends in counts the bytes, the visits and the depth of includes. Each count is the
most that has been spent at any of its moments.
-/

namespace PathQuery

namespace Renderer

open RenderM

/-! ### Counts do not go down -/

theorem Ledger.le_after (l : Ledger) (a : Act) :
    l.written ≤ (l.after a).written ∧ l.iterations ≤ (l.after a).iterations ∧
      l.deepest ≤ (l.after a).deepest := by
  cases a with
  | wrote w => exact ⟨Nat.le_add_right _ _, Nat.le_refl _, Nat.le_refl _⟩
  | visited item => exact ⟨Nat.le_refl _, Nat.le_succ _, Nat.le_refl _⟩
  | asked depth call => exact ⟨Nat.le_refl _, Nat.le_refl _, Nat.le_max_left _ _⟩

theorem Ledger.le_afterAll (l : Ledger) (acts : List Act) :
    l.written ≤ (l.afterAll acts).written ∧ l.iterations ≤ (l.afterAll acts).iterations ∧
      l.deepest ≤ (l.afterAll acts).deepest := by
  induction acts with
  | nil => exact ⟨Nat.le_refl _, Nat.le_refl _, Nat.le_refl _⟩
  | cons a acts ih =>
    obtain ⟨hwritten, hiterations, hdeepest⟩ := (l.afterAll acts).le_after a
    exact ⟨ih.1.trans hwritten, ih.2.1.trans hiterations, ih.2.2.trans hdeepest⟩

theorem used_le_of_ledger {s s' : RenderState} {acts : List Act}
    (h : Ledger.ofState s' = (Ledger.ofState s).afterAll acts) (kind : Limit) :
    s.used kind ≤ s'.used kind := by
  have hle := (Ledger.ofState s).le_afterAll acts
  rw [← h] at hle
  cases kind with
  | iterations => exact hle.2.1
  | includeDepth => exact hle.2.2
  | outputSize => exact hle.1

namespace Moment

variable {r : Renderer} {m m' : Moment}

theorem Step.used_le (h : Step r m m') (kind : Limit) : m.state.used kind ≤ m'.state.used kind := by
  cases h with
  | @done t rest more s s' acts hrun =>
    have hledger := t.ledger_run r s
    rw [hrun] at hledger
    exact used_le_of_ledger hledger kind
  | @failed t rest s s' acts e hrun =>
    have hledger := t.ledger_run r s
    rw [hrun] at hledger
    exact used_le_of_ledger hledger kind
  | unwound e t rest s acts =>
    have hledger : Ledger.ofState (t.unwind s) = (Ledger.ofState s).afterAll [] := t.ledger_unwind s
    exact used_le_of_ledger hledger kind

theorem Leads.used_le (h : m.Leads r m') (kind : Limit) :
    m.state.used kind ≤ m'.state.used kind := by
  induction h with
  | refl => exact Nat.le_refl _
  | tail _ hstep ih => exact ih.trans (hstep.used_le kind)

/-! ### One moment after the other -/

theorem step_rightUnique (r : Renderer) : Relator.RightUnique (Step r) := by
  intro m m₁ m₂ h₁ h₂
  cases h₁ with
  | done hrun =>
    cases h₂ with
    | done hrun' =>
      rw [hrun] at hrun'
      cases hrun'
      rfl
    | failed hrun' =>
      rw [hrun] at hrun'
      cases hrun'
  | failed hrun =>
    cases h₂ with
    | done hrun' =>
      rw [hrun] at hrun'
      cases hrun'
    | failed hrun' =>
      rw [hrun] at hrun'
      cases hrun'
      rfl
  | unwound e t rest s acts =>
    cases h₂
    rfl

/-- Every moment comes before the end. -/
theorem Leads.to_end {first last : Moment} (h : first.Leads r m) (hlast : first.Leads r last)
    (hdone : last.tasks = []) : m.Leads r last := by
  rcases Relation.ReflTransGen.total_of_right_unique (step_rightUnique r) h hlast with h | h
  · exact h
  · rcases h.cases_head with rfl | ⟨next, hstep, _⟩
    · exact .refl
    · cases hstep <;> cases hdone

theorem Leads.failure_eq_none (h : m.Leads r m') (hok : m'.failure = none) : m.failure = none := by
  cases hfailure : m.failure with
  | none => rfl
  | some e =>
    rw [(h.of_failure hfailure).1] at hok
    cases hok

end Moment

/-! ### How deep includes are -/

theorem opened_append (ts ts' : List Task) : opened (ts ++ ts') = opened ts + opened ts' :=
  List.countP_append

namespace Task

variable {r : Renderer} {t : Task} {s s' : RenderState} {more : List Task}

/-- An answer opens a text, and the state keeps the greatest depth that was asked for. -/
theorem opened_of_ask {here : Frame} {includer : Includer} {call : IncludeCall}
    (hrun : ((ask here includer call).run r).runFrom s = (.ok more, s')) :
    opened more = 1 ∧
      s'.deepest = max s.deepest (r.config.settings.maxIncludeDepth - here.remaining) := by
  have hyields : Yields ((ask here includer call).run r) fun more => opened more = 1 :=
    .bind fun _ => .bind fun _ => .pure rfl
  have hledger := (ask here includer call).ledger_run r s
  rw [hrun] at hledger
  exact ⟨hyields s more s' hrun, congrArg Ledger.deepest hledger⟩

theorem opened_of_run (hrun : (t.run r).runFrom s = (.ok more, s'))
    (hask : ∀ here includer call, t ≠ .ask here includer call) :
    opened more = 0 ∧ s'.deepest = s.deepest := by
  have hleaves := t.run_yields r s more s' hrun
  have hledger := t.ledger_run r s
  rw [hrun] at hledger
  have hdeepest : s'.deepest = ((Ledger.ofState s).afterAll (t.acts r true)).deepest :=
    congrArg Ledger.deepest hledger
  refine ⟨?_, hdeepest.trans ?_⟩
  · cases hleaves with
    | included here includer call => exact absurd rfl (hask here includer call)
    | _ => rfl
  · cases t with
    | ask here includer call => exact absurd rfl (hask here includer call)
    | visits here body i items => cases items <;> rfl
    | _ => rfl

end Task

namespace Moment

variable {r : Renderer} {m m' : Moment}

/-- Includes are no deeper than the state says they have been, and they have been as deep. -/
def Peak (r : Renderer) (first m : Moment) : Prop :=
  opened m.tasks ≤ m.state.deepest ∧ ∃ m₀, first.Leads r m₀ ∧ opened m₀.tasks = m.state.deepest

theorem Peak.step {first : Moment} (h : Peak r first m) (hkept : m.Kept r) (hm : first.Leads r m)
    (hstep : Step r m m') (hok : m'.failure = none) : Peak r first m' := by
  have hm' : first.Leads r m' := hm.tail hstep
  obtain ⟨hle, m₀, hm₀, hpeak⟩ := h
  cases hstep with
  | failed hrun => cases hok
  | unwound e t rest s acts => cases hok
  | @done t rest more s s' acts hrun =>
    by_cases hask : ∃ here includer call, t = .ask here includer call
    · obtain ⟨here, includer, call, rfl⟩ := hask
      obtain ⟨hone, hdeepest⟩ := Task.opened_of_ask hrun
      have hopened : opened (more ++ rest) = opened rest + 1 := by
        rw [opened_append, hone, Nat.add_comm]
      -- the depth asked for is the one that is open once there is an answer
      have hfits : here.remaining + opened rest + 1 = r.config.settings.maxIncludeDepth :=
        hkept.nested.1
      have hdepth : r.config.settings.maxIncludeDepth - here.remaining = opened rest + 1 := by omega
      rw [hdepth] at hdeepest
      refine ⟨hopened.trans_le (hdeepest ▸ Nat.le_max_right _ _), ?_⟩
      rcases Nat.le_total (opened rest + 1) s.deepest with hless | hless
      · exact ⟨m₀, hm₀, hpeak.trans (hdeepest.trans (Nat.max_eq_left hless)).symm⟩
      · exact ⟨_, hm', hopened.trans (hdeepest.trans (Nat.max_eq_right hless)).symm⟩
    · have hother (here : Frame) (includer : Includer) (call : IncludeCall) :
          t ≠ .ask here includer call := fun heq => hask ⟨here, includer, call, heq⟩
      obtain ⟨hopened, hdeepest⟩ := Task.opened_of_run hrun hother
      refine ⟨?_, m₀, hm₀, hpeak.trans hdeepest.symm⟩
      have hrest : opened rest ≤ opened (t :: rest) := (List.sublist_cons_self t rest).countP_le
      rw [opened_append, hopened, Nat.zero_add]
      exact (hrest.trans hle).trans hdeepest.ge

theorem peak_of_leads {base : Option String} {ps : List Part} (h : (start r base ps).Leads r m)
    (hok : m.failure = none) : Peak r (start r base ps) m := by
  induction h with
  | refl => exact ⟨Nat.le_refl _, _, .refl, rfl⟩
  | tail hm hstep ih =>
    have hearlier := Leads.failure_eq_none (.single hstep) hok
    exact (ih hearlier).step ((kept_start r base ps).leads hm) hm hstep hok

theorem spent_le_used {base : Option String} {ps : List Part} (h : (start r base ps).Leads r m)
    (hok : m.failure = none) (kind : Limit) : m.spent kind ≤ m.state.used kind := by
  have haccounted := ((kept_start r base ps).leads h).accounted
  cases kind with
  | iterations => exact haccounted.iterations.ge
  | includeDepth => exact (peak_of_leads h hok).1
  | outputSize => exact haccounted.written.ge

/-- What has been used at the end is the most that was spent at any moment. -/
theorem isGreatest_used {base : Option String} {ps : List Part}
    (hlast : (start r base ps).Leads r m) (hdone : m.tasks = []) (hok : m.failure = none)
    (kind : Limit) :
    IsGreatest ((fun m => m.spent kind) '' {m | (start r base ps).Leads r m})
      (m.state.used kind) := by
  have haccounted := ((kept_start r base ps).leads hlast).accounted
  constructor
  · cases kind with
    | iterations => exact ⟨m, hlast, haccounted.iterations.symm⟩
    | includeDepth =>
      obtain ⟨_, m₀, hm₀, hpeak⟩ := peak_of_leads hlast hok
      exact ⟨m₀, hm₀, hpeak⟩
    | outputSize => exact ⟨m, hlast, haccounted.written.symm⟩
  · rintro _ ⟨m', hm', rfl⟩
    have hlater := Leads.to_end hm' hlast hdone
    have hspent := spent_le_used hm' (hlater.failure_eq_none hok) kind
    exact hspent.trans (hlater.used_le kind)

end Moment

end Renderer
end PathQuery
