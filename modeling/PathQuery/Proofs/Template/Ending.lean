import PathQuery.Proofs.Template.Moments

/-!
# Renderings come to an end

A loop has finitely many visits, and an include inside another one has fewer left. So the moments of a
rendering come to an end whatever the includer answers, and the last one has its outcome and its state.
-/

namespace PathQuery
namespace Renderer

variable {r : Renderer}

/-! ### Ends -/

section

variable (r)

/-- Whatever is to be done after them and however it goes, tasks come to an end. -/
def EndAll (ts : List Task) : Prop :=
  ∀ failure rest s acts, ∃ failure' s' acts',
    Moment.Leads r ⟨failure, ts ++ rest, s, acts⟩ ⟨failure', rest, s', acts'⟩

end

theorem EndAll.nil : EndAll r [] := fun failure _ s acts => ⟨failure, s, acts, .refl⟩

theorem EndAll.cons {t : Task} {ts : List Task} (ht : EndAll r [t]) (hts : EndAll r ts) :
    EndAll r (t :: ts) := by
  intro failure rest s acts
  obtain ⟨failure₁, s₁, acts₁, hfirst⟩ := ht failure (ts ++ rest) s acts
  obtain ⟨failure₂, s₂, acts₂, hrest⟩ := hts failure₁ rest s₁ acts₁
  exact ⟨failure₂, s₂, acts₂, hfirst.trans hrest⟩

/-- A task ends if all that its first bit can leave does. -/
theorem EndAll.of_leaves {t : Task} (h : ∀ more, t.Leaves more → EndAll r more) :
    EndAll r [t] := by
  intro failure rest s acts
  cases failure with
  | some e => exact ⟨some e, t.unwind s, acts, .single (.unwound e t rest s acts)⟩
  | none =>
    cases hrun : (t.run r).runFrom s with
    | mk outcome s₁ =>
      cases outcome with
      | error e => exact ⟨some e, s₁, t.acts r false ++ acts, .single (.failed hrun)⟩
      | ok more =>
        have hleaves := t.run_yields r s more s₁ hrun
        obtain ⟨failure', s', acts', hmore⟩ := h more hleaves none rest s₁ (t.acts r true ++ acts)
        exact ⟨failure', s', acts', .head (.done hrun) hmore⟩

theorem EndAll.last {t : Task} (h : ∀ more, t.Leaves more → more = []) : EndAll r [t] :=
  .of_leaves fun more hmore => h more hmore ▸ .nil

theorem endAll_write (w : Write) : EndAll r [.write w] :=
  .last fun more hmore => by cases hmore; rfl

theorem endAll_close : EndAll r [.close] :=
  .last fun more hmore => by cases hmore; rfl

theorem endAll_leave (saved : SavedContext) : EndAll r [.leave saved] :=
  .last fun more hmore => by cases hmore; rfl

theorem endAll_visits {here : Frame} {body : List Part}
    (hbody : ∀ current, EndAll r [.parts { here with current := current } body]) (i : Nat)
    (items : List Item) : EndAll r [.visits here body i items] := by
  induction items generalizing i with
  | nil => exact .last fun more hmore => by cases hmore; rfl
  | cons item items ih =>
    refine .of_leaves fun more hmore => ?_
    cases hmore with
    | nothing => exact .nil
    | skipped => exact ih (i + 1)
    | rendered => exact .cons (hbody _) (ih (i + 1))

mutual

theorem endAll_part {n : Nat}
    (hask : ∀ here includer call, here.remaining < n → EndAll r [.ask here includer call])
    (p : Part) (here : Frame) (hn : here.remaining = n) : EndAll r [.part here p] := by
  refine .of_leaves fun more hmore => ?_
  cases p with
  | text s =>
    cases hmore with
    | nothing => exact .nil
    | text => exact endAll_write _
  | value terms =>
    cases hmore with
    | nothing => exact .nil
    | value => exact endAll_write _
  | insertion name =>
    cases hmore with
    | nothing => exact .nil
    | @allowed _ k h includer name =>
      have hless : k < n := by omega
      exact hask _ includer _ hless
  | loop subject body =>
    cases hmore with
    | nothing => exact .nil
    | loop =>
      have hbody := fun current =>
        endAll_parts hask body { here with current := current } hn
      exact .cons (endAll_visits hbody 0 _) (endAll_leave _)
  | choice guard yes no =>
    cases hmore with
    | nothing => exact .nil
    | yes => exact endAll_parts hask yes here hn
    | no => exact endAll_parts hask no here hn

theorem endAll_parts {n : Nat}
    (hask : ∀ here includer call, here.remaining < n → EndAll r [.ask here includer call])
    (ps : List Part) (here : Frame) (hn : here.remaining = n) : EndAll r [.parts here ps] := by
  refine .of_leaves fun more hmore => ?_
  cases ps with
  | nil =>
    cases hmore with
    | nothing => exact .nil
  | cons p ps =>
    cases hmore with
    | nothing => exact .nil
    | inTurn => exact .cons (endAll_part hask p here hn) (endAll_parts hask ps here hn)

end

/-- An include ends, however texts include each other. -/
theorem endAll_ask (n : Nat) (here : Frame) (includer : Includer) (call : IncludeCall)
    (hn : here.remaining = n) : EndAll r [.ask here includer call] := by
  -- the induction is on how many includes may be inside this one, whatever the text is
  induction n using Nat.strongRecOn generalizing here includer call with
  | ind n ih =>
    refine .of_leaves fun more hmore => ?_
    cases hmore with
    | nothing => exact .nil
    | included =>
      have hinner : ∀ here includer call, here.remaining < n →
          EndAll r [.ask here includer call] :=
        fun here includer call h => ih here.remaining h here includer call rfl
      exact .cons (endAll_parts hinner _ _ hn) endAll_close

/-- The moments of a rendering come to an end, and it has the outcome and the state of the last. -/
theorem renderTop_leads (base : Option String) (ps : List Part) :
    ∃ m, (Moment.start r base ps).Leads r m ∧ m.tasks = [] ∧
      (r.renderTop base ps).runFrom .initial = (outcomeOf m.failure, m.state) := by
  have hends : EndAll r [.parts ⟨base, [.node []], r.config.settings.maxIncludeDepth⟩ ps] :=
    endAll_parts (fun here includer call _ => endAll_ask _ here includer call rfl) ps _ rfl
  obtain ⟨failure, s, acts, hrun⟩ := hends none [] .initial []
  have hleads : (Moment.start r base ps).Leads r ⟨failure, [], s, acts⟩ := hrun
  refine ⟨⟨failure, [], s, acts⟩, hleads, rfl, ?_⟩
  rw [← Moment.final_start, ← hleads.final_eq]
  cases failure with
  | none => rfl
  | some e => rfl

end Renderer
end PathQuery
