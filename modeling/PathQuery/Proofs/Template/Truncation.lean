import PathQuery.Proofs.Template.Bounds
import PathQuery.Proofs.Template.Lockstep

/-!
# Renderings cut short

Two renderings of the same parts go hand in hand as long as neither is refused anything. Where one of
them has lower bounds or a sink that accepts less, it may stop before the other one. Then it has written
a part of what the other writes, and the other goes on with just what it was refused.
-/

namespace PathQuery

/-! ### Growing states -/

/-- How much a rendering has used of what is bounded: the items visited, the greatest number of
includes inside each other and the bytes written. -/
def RenderState.used (s : RenderState) : Limit → Nat
  | .iterations => s.iterations
  | .includeDepth => s.deepest
  | .outputSize => s.written

/-- What a rendering into a sink does to its state: it writes texts that the sink accepts, and no count
goes down. -/
structure RenderState.Grows (sink : Sink) (s s' : RenderState) : Prop where
  writes : s.writes <:+ s'.writes
  accepted : ∀ w older, w :: older <:+ s'.writes → w :: older <:+ s.writes ∨ sink older w = true
  used : ∀ kind, s.used kind ≤ s'.used kind

namespace RenderState.Grows

variable {sink : Sink} {s s' : RenderState}

theorem of_writes (hwrites : s'.writes = s.writes) (hused : ∀ kind, s.used kind ≤ s'.used kind) :
    s.Grows sink s' :=
  ⟨hwrites ▸ List.suffix_rfl, fun _ _ h => .inl (hwrites ▸ h), hused⟩

theorem refl (sink : Sink) (s : RenderState) : s.Grows sink s := of_writes rfl fun _ => Nat.le_refl _

theorem trans {s₁ s₂ s₃ : RenderState} (h : s₁.Grows sink s₂) (h' : s₂.Grows sink s₃) :
    s₁.Grows sink s₃ where
  writes := h.writes.trans h'.writes
  accepted w older hw := (h'.accepted w older hw).elim (h.accepted w older) .inr
  used kind := (h.used kind).trans (h'.used kind)

theorem of_ledger (h : Renderer.Ledger.ofState s' = Renderer.Ledger.ofState s) :
    s.Grows sink s' := by
  simp only [Renderer.Ledger.ofState, Renderer.Ledger.mk.injEq] at h
  obtain ⟨hwrites, hwritten, hiterations, hdeepest, _⟩ := h
  refine of_writes hwrites fun kind => ?_
  cases kind with
  | iterations => exact hiterations.ge
  | includeDepth => exact hdeepest.ge
  | outputSize => exact hwritten.ge

theorem write {w : Write} (h : sink s.writes w = true) : s.Grows sink { s with
    writes := w :: s.writes, written := s.written + w.text.utf8ByteSize } where
  writes := List.suffix_cons w s.writes
  accepted w' older hw := by
    rcases List.suffix_cons_iff.mp hw with heq | hw
    · cases heq
      exact .inr h
    · exact .inl hw
  used kind := by
    cases kind with
    | outputSize => exact Nat.le_add_right _ _
    | _ => exact Nat.le_refl _

theorem visit (sink : Sink) (s : RenderState) :
    s.Grows sink { s with iterations := s.iterations + 1 } := by
  refine of_writes rfl fun kind => ?_
  cases kind with
  | iterations => exact Nat.le_succ _
  | _ => exact Nat.le_refl _

end RenderState.Grows

namespace Renderer

open RenderM

/-! ### Renderers that allow less -/

/-- The first renderer allows less than the second one and does everything else as it does. -/
structure Tightens (r r' : Renderer) : Prop where
  select : ∀ terms current, r.select terms current = r'.select terms current
  backend : r.env.backend = r'.env.backend
  signatures : r.config.functions.signatures = r'.config.functions.signatures
  escapeHtml : r.config.settings.escapeHtml = r'.config.settings.escapeHtml
  includer : r.config.includer = r'.config.includer
  keepsCompiled : r.keepsCompiled = r'.keepsCompiled
  bound : ∀ kind, r.config.settings.bound kind ≤ r'.config.settings.bound kind
  sink : ∀ accepted w, r.sink accepted w = true → r'.sink accepted w = true

/-- Why a run under the first renderer stops with an error, given how far it has come and what the run
under the second one comes to: a bound that the other run goes over, or a text that its sink accepts. -/
inductive Cut (r r' : Renderer) {α : Type} (s₁ : RenderState) (ran : Except RenderError α × RenderState) :
    RenderError → Prop where
  | limit (kind : Limit) (hless : r.config.settings.bound kind < r'.config.settings.bound kind)
      (hused : ran.1.isOk = true → r.config.settings.bound kind < ran.2.used kind) :
      Cut r r' s₁ ran (.limit kind (r.config.settings.bound kind))
  | sink (w : Write) (hrefused : r.sink s₁.writes w = false) (haccepted : r'.sink s₁.writes w = true)
      (hwritten : w :: s₁.writes <:+ ran.2.writes) : Cut r r' s₁ ran .sinkFailed

/-- From every state the first computation does what the second one does, or is cut short on the way. -/
def Truncates (r r' : Renderer) {α : Type} (m m' : RenderM α) : Prop :=
  ∀ s, s.Grows r'.sink (m'.runFrom s).2 ∧
    (m.runFrom s = m'.runFrom s ∨
      ∃ e s₁, m.runFrom s = (.error e, s₁) ∧ s₁.writes <:+ (m'.runFrom s).2.writes ∧
        Cut r r' s₁ (m'.runFrom s) e)

variable {r r' : Renderer} {α β : Type}

/-- What has been cut off is still missing when the other run has gone on. -/
theorem Cut.later {s₁ : RenderState} {ran : Except RenderError α × RenderState}
    {later : Except RenderError β × RenderState} {e : RenderError} (h : Cut r r' s₁ ran e)
    (hok : later.1.isOk = true → ran.1.isOk = true) {sink : Sink} (hgrows : ran.2.Grows sink later.2) :
    Cut r r' s₁ later e := by
  cases h with
  | limit kind hless hused =>
    exact .limit kind hless fun h => Nat.lt_of_lt_of_le (hused (hok h)) (hgrows.used kind)
  | sink w hrefused haccepted hwritten =>
    exact .sink w hrefused haccepted (hwritten.trans hgrows.writes)

namespace Truncates

theorem quiet {m : RenderM α} (h : Keeps Ledger.ofState m) : Truncates r r' m m :=
  fun s => ⟨.of_ledger (h s), .inl rfl⟩

theorem bind {m m' : RenderM α} {k k' : α → RenderM β} (hm : Truncates r r' m m')
    (hk : ∀ x, Truncates r r' (k x) (k' x)) : Truncates r r' (m >>= k) (m' >>= k') := by
  intro s
  obtain ⟨hgrows, hruns⟩ := hm s
  cases hrun' : m'.runFrom s with
  | mk outcome s₂ =>
    rw [hrun'] at hgrows hruns
    cases outcome with
    | error e =>
      rw [runFrom_bind_error hrun']
      refine ⟨hgrows, ?_⟩
      rcases hruns with hrun | ⟨e', s₁, hrun, hwrites, hcut⟩
      · exact .inl (runFrom_bind_error hrun k)
      · exact .inr ⟨e', s₁, runFrom_bind_error hrun k, hwrites, hcut.later id (.refl r'.sink _)⟩
    | ok x =>
      -- what was cut off before is not made up for by what follows: the other run only grows
      obtain ⟨hgrows', hruns'⟩ := hk x s₂
      rw [runFrom_bind_ok hrun']
      refine ⟨hgrows.trans hgrows', ?_⟩
      rcases hruns with hrun | ⟨e', s₁, hrun, hwrites, hcut⟩
      · rw [runFrom_bind_ok hrun]
        exact hruns'
      · exact .inr ⟨e', s₁, runFrom_bind_error hrun k, hwrites.trans hgrows'.writes,
          hcut.later (fun _ => rfl) hgrows'⟩

theorem within {m m' : RenderM α} (items : List Item) (h : Truncates r r' m m') :
    Truncates r r' (RenderM.within items m) (RenderM.within items m') := by
  intro s
  obtain ⟨hgrows, hruns⟩ := h { s with context := (s.context.enter items).2 }
  rw [runFrom_within, runFrom_within]
  refine ⟨⟨hgrows.writes, hgrows.accepted, hgrows.used⟩, ?_⟩
  rcases hruns with hrun | ⟨e, s₁, hrun, hwrites, hcut⟩
  · rw [hrun]
    exact .inl rfl
  · rw [hrun]
    refine .inr ⟨e, _, rfl, hwrites, ?_⟩
    cases hcut with
    | limit kind hless hused => exact .limit kind hless hused
    | sink w hrefused haccepted hwritten => exact .sink w hrefused haccepted hwritten

end Truncates

/-! ### Acts -/

section

variable (h : r.Tightens r')

include h

theorem write_truncates (w : Write) :
    Truncates r r' (write r.sink r.config.settings.maxOutputSize w)
      (write r'.sink r'.config.settings.maxOutputSize w) := by
  intro s
  have hbound : r.config.settings.maxOutputSize ≤ r'.config.settings.maxOutputSize :=
    h.bound .outputSize
  rw [runFrom_write, runFrom_write]
  by_cases hover' : r'.config.settings.maxOutputSize < s.written + w.text.utf8ByteSize
  · -- both bounds refuse the text
    rw [if_pos hover', if_pos (Nat.lt_of_le_of_lt hbound hover')]
    refine ⟨.refl r'.sink s, ?_⟩
    rcases Nat.eq_or_lt_of_le hbound with hsame | hless
    · exact .inl (by rw [hsame])
    · exact .inr ⟨_, s, rfl, List.suffix_rfl, .limit .outputSize hless (fun hok => by cases hok)⟩
  rw [if_neg hover']
  by_cases hover : r.config.settings.maxOutputSize < s.written + w.text.utf8ByteSize
  · rw [if_pos hover]
    -- the tighter bound alone refuses it, so what the other run does here is the first difference
    have hless : r.config.settings.maxOutputSize < r'.config.settings.maxOutputSize := by omega
    cases hsink' : r'.sink s.writes w with
    | true =>
      exact ⟨.write hsink', .inr ⟨_, s, rfl, List.suffix_cons w _,
        .limit .outputSize hless fun _ => hover⟩⟩
    | false =>
      exact ⟨.refl r'.sink s, .inr ⟨_, s, rfl, List.suffix_rfl,
        .limit .outputSize hless fun hok => by cases hok⟩⟩
  rw [if_neg hover]
  cases hsink : r.sink s.writes w with
  | true =>
    have hsink' := h.sink s.writes w hsink
    rw [hsink']
    exact ⟨.write hsink', .inl rfl⟩
  | false =>
    cases hsink' : r'.sink s.writes w with
    | true =>
      exact ⟨.write hsink', .inr ⟨_, s, rfl, List.suffix_cons w _,
        .sink w hsink hsink' List.suffix_rfl⟩⟩
    | false => exact ⟨.refl r'.sink s, .inl rfl⟩

theorem tick_truncates :
    Truncates r r' (tick r.config.settings.maxIterations) (tick r'.config.settings.maxIterations) := by
  intro s
  have hbound : r.config.settings.maxIterations ≤ r'.config.settings.maxIterations :=
    h.bound .iterations
  rw [runFrom_tick, runFrom_tick]
  by_cases hleft' : s.iterations < r'.config.settings.maxIterations
  · rw [if_pos hleft']
    refine ⟨.visit r'.sink s, ?_⟩
    by_cases hleft : s.iterations < r.config.settings.maxIterations
    · exact .inl (by rw [if_pos hleft])
    · rw [if_neg hleft]
      have hspent := Nat.le_of_not_lt hleft
      exact .inr ⟨_, s, rfl, List.suffix_rfl,
        .limit .iterations (Nat.lt_of_le_of_lt hspent hleft') fun _ => Nat.lt_succ_of_le hspent⟩
  · rw [if_neg hleft', if_neg fun hleft => hleft' (Nat.lt_of_lt_of_le hleft hbound)]
    refine ⟨.refl r'.sink s, ?_⟩
    rcases Nat.eq_or_lt_of_le hbound with hsame | hless
    · exact .inl (by rw [hsame])
    · exact .inr ⟨_, s, rfl, List.suffix_rfl, .limit .iterations hless (fun hok => by cases hok)⟩

end

/-! ### Parts -/

section

variable (h : r.Tightens r')

include h

theorem select_truncates (terms : List Term) (current : List Item) :
    Truncates r r' (r.select terms current) (r'.select terms current) := by
  rw [← h.select]
  exact .quiet (.evaluate (fun _ _ => rfl) _)

end

/-- Renderings go in lockstep until the first one is cut short. -/
def truncating (h : r.Tightens r') : Lockstep r r' where
  rel _ m m' := Truncates r r' m m'
  inner _ m m' := Truncates r r' m m'
  tree := ⟨h.backend.symm⟩
  mono _ hm := hm
  nothing _ := .quiet (.pure ())
  andThen hm hk := hm.bind fun _ => hk
  select terms hk := (select_truncates h terms _).bind hk
  write _ s substituted := by
    have hsame : r'.shown s substituted = r.shown s substituted := by
      rw [shown, shown, substitution, substitution, h.escapeHtml]
    rw [hsame]
    exact write_truncates h _
  inner_of_rel hm := hm
  inner_andThen hm hk := hm.bind fun _ => hk
  inner_tick _ := tick_truncates h
  inner_index _ _ := .quiet fun _ => rfl
  within items hm := hm.within items

theorem renderParts_truncates (h : r.Tightens r')
    {insert insert' : IncludeCall → List Item → RenderM Unit}
    (hinsert : ∀ call current, Truncates r r' (insert call current) (insert' call current))
    (base : Option String) (current : List Item) (ps : List Part) :
    Truncates r r' (r.renderParts insert base current ps)
      (r'.renderParts insert' base current ps) :=
  (truncating h).renderParts hinsert base current ps

/-! ### Includes -/

theorem ask_truncates (r r' : Renderer) (includer : Includer) (depth : Nat) (call : IncludeCall) :
    Truncates r r' (ask includer depth call) (ask includer depth call) := by
  intro s
  have hledger := ledger_ask includer depth call s
  simp only [Ledger.ofState, Ledger.after, Ledger.mk.injEq] at hledger
  obtain ⟨hwrites, hwritten, hiterations, hdeepest, _⟩ := hledger
  refine ⟨.of_writes hwrites fun kind => ?_, .inl rfl⟩
  cases kind with
  | iterations => exact hiterations.ge
  | includeDepth => exact (Nat.le_max_left _ depth).trans hdeepest.ge
  | outputSize => exact hwritten.ge

theorem Tightens.refl (r : Renderer) : r.Tightens r :=
  ⟨fun _ _ => rfl, rfl, rfl, rfl, rfl, rfl, fun _ => Nat.le_refl _, fun _ _ h => h⟩

theorem Tightens.partsOf_eq (h : r.Tightens r') (name : String) (found : Included) :
    r.partsOf name found = r'.partsOf name found := by
  rw [partsOf, partsOf, h.signatures, h.keepsCompiled]

theorem found_truncates (h : r.Tightens r') {insert insert' : IncludeCall → List Item → RenderM Unit}
    (hinsert : ∀ call current, Truncates r r' (insert call current) (insert' call current))
    (name : String) (found : Included) (current : List Item) :
    Truncates r r'
      (r.partsOf name found >>= r.renderParts insert (some found.location) current)
      (r'.partsOf name found >>= r'.renderParts insert' (some found.location) current) := by
  rw [h.partsOf_eq]
  exact (Truncates.quiet (.partsOf (fun _ _ => rfl) r' name found)).bind fun parts =>
    renderParts_truncates h hinsert (some found.location) current parts

theorem insertion_grows (r : Renderer) (remaining : Nat) (call : IncludeCall) (current : List Item) :
    Truncates r r (r.insertion remaining call current) (r.insertion remaining call current) := by
  induction remaining generalizing call current with
  | zero => exact .quiet (.throw _)
  | succ remaining ih =>
    rw [insertion]
    split
    · exact .quiet (.throw _)
    · exact (ask_truncates r r _ _ call).bind fun found => found_truncates (.refl r) ih _ found current

theorem depth_le_of_insertion (r : Renderer) (remaining : Nat) (call : IncludeCall)
    (current : List Item) (s : RenderState)
    (h : ((r.insertion (remaining + 1) call current).runFrom s).1.isOk = true) :
    r.config.settings.maxIncludeDepth - remaining ≤
      ((r.insertion (remaining + 1) call current).runFrom s).2.deepest := by
  rw [insertion] at h ⊢
  cases hincluder : r.config.includer with
  | none =>
    rw [hincluder] at h
    cases h
  | some includer =>
    simp only [hincluder] at h ⊢
    have hledger := ledger_ask includer (r.config.settings.maxIncludeDepth - remaining) call s
    cases hask : (ask includer (r.config.settings.maxIncludeDepth - remaining) call).runFrom s with
    | mk outcome s₁ =>
      rw [hask] at hledger
      simp only [Ledger.ofState, Ledger.after, Ledger.mk.injEq] at hledger
      cases outcome with
      | error e =>
        rw [runFrom_bind_error hask] at h
        cases h
      | ok found =>
        rw [runFrom_bind_ok hask]
        have hgrows := (found_truncates (.refl r) (insertion_grows r remaining) call.name found
          current s₁).1.used .includeDepth
        refine Nat.le_trans ?_ hgrows
        exact (Nat.le_max_right _ _).trans hledger.2.2.2.1.ge

/-- With `k` more includes allowed inside each other, an include goes as far, or further where it was
too deep. -/
theorem insertion_truncates (h : r.Tightens r') {k : Nat}
    (hk : r'.config.settings.maxIncludeDepth = r.config.settings.maxIncludeDepth + k)
    {remaining : Nat} (hremaining : remaining ≤ r.config.settings.maxIncludeDepth)
    (call : IncludeCall) (current : List Item) :
    Truncates r r' (r.insertion remaining call current)
      (r'.insertion (remaining + k) call current) := by
  induction remaining generalizing call current with
  | zero =>
    intro s
    rw [Nat.zero_add]
    refine ⟨(insertion_grows r' k call current s).1, ?_⟩
    cases k with
    | zero =>
      left
      rw [insertion, insertion, hk]
      rfl
    | succ k =>
      -- too deep for the first renderer; where the second one succeeds it has counted this depth
      refine .inr ⟨_, s, rfl, (insertion_grows r' (k + 1) call current s).1.writes, ?_⟩
      have hless : r.config.settings.maxIncludeDepth < r'.config.settings.maxIncludeDepth := by omega
      refine .limit .includeDepth hless fun hok => ?_
      have hdepth := depth_le_of_insertion r' k call current s hok
      change r.config.settings.maxIncludeDepth < _
      refine Nat.lt_of_lt_of_le ?_ hdepth
      omega
  | succ remaining ih =>
    have hdepth : r'.config.settings.maxIncludeDepth - (remaining + k) =
        r.config.settings.maxIncludeDepth - remaining := by omega
    rw [Nat.succ_add, insertion, insertion, h.includer]
    cases r'.config.includer with
    | none => exact .quiet (.throw _)
    | some includer =>
      simp only [hdepth]
      exact (ask_truncates r r' includer _ call).bind fun found =>
        found_truncates h (ih (Nat.le_of_succ_le hremaining)) call.name found current

theorem renderTop_truncates (h : r.Tightens r') (base : Option String) (ps : List Part) :
    Truncates r r' (r.renderTop base ps) (r'.renderTop base ps) := by
  have hbound : r.config.settings.maxIncludeDepth ≤ r'.config.settings.maxIncludeDepth :=
    h.bound .includeDepth
  obtain ⟨k, hk⟩ := Nat.exists_eq_add_of_le hbound
  refine renderParts_truncates h (fun call current => ?_) base _ ps
  rw [hk]
  exact insertion_truncates h hk (Nat.le_refl _) call current

end Renderer
end PathQuery
