import PathQuery.Proofs.Template.Usage

/-!
# Templates under lower bounds

Lower bounds only cut a rendering short, and just where it would go over one of them. A sink that fails
cuts it short at the text that it refuses.
-/

namespace PathQuery

/-! ### What is written -/

theorem RenderState.utf8ByteSize_output (s : RenderState) :
    s.output.utf8ByteSize = bytesOf s.writes := by
  rw [output]
  induction s.writes with
  | nil => rfl
  | cons w ws ih =>
    rw [List.reverse_cons, List.map_append, String.join_append, String.utf8ByteSize_append, ih,
      bytesOf, bytesOf, totalOf_cons, Nat.add_comm]
    rfl

theorem RenderState.output_append {s s' : RenderState} (h : s.writes <:+ s'.writes) :
    ∃ rest, s.output ++ rest = s'.output := by
  obtain ⟨more, hmore⟩ := h
  refine ⟨String.join (more.reverse.map Write.text), ?_⟩
  rw [output, output, ← hmore, List.reverse_append, List.map_append, String.join_append]

namespace Renderer

open RenderM

section

variable (r : Renderer) (base : Option String) (ps : List Part)

theorem used_renderTop_le (kind : Limit) :
    ((r.renderTop base ps).runFrom .initial).2.used kind ≤ r.config.settings.bound kind := by
  obtain ⟨m, hleads, _, hfinal⟩ := renderTop_leads (r := r) base ps
  have hwithin := ((Moment.kept_start r base ps).leads hleads).within
  rw [hfinal]
  cases kind with
  | iterations => exact hwithin.iterations
  | includeDepth => exact hwithin.deepest
  | outputSize => exact hwithin.written

theorem written_renderTop :
    ((r.renderTop base ps).runFrom .initial).2.written =
      ((r.renderTop base ps).runFrom .initial).2.output.utf8ByteSize := by
  obtain ⟨m, hleads, _, hfinal⟩ := renderTop_leads (r := r) base ps
  have haccounted := ((Moment.kept_start r base ps).leads hleads).accounted
  rw [hfinal, RenderState.utf8ByteSize_output]
  change m.state.written = bytesOf m.state.writes
  rw [haccounted.written, haccounted.writes]
  rfl

theorem accepted_of_renderTop {w : Write} {older : List Write}
    (h : w :: older <:+ ((r.renderTop base ps).runFrom .initial).2.writes) :
    r.sink older w = true := by
  have hgrows := (renderTop_truncates (.refl r) base ps .initial).1
  refine (hgrows.accepted w older h).resolve_left fun hnone => ?_
  exact absurd (List.suffix_nil.mp hnone) (List.cons_ne_nil w older)

end

/-- What a rendering and one that allows more come to: the same, or the first is cut short. -/
theorem Tightens.renderTop_cases {r r' : Renderer} (h : r.Tightens r') (base : Option String)
    (ps : List Part) :
    (r.renderTop base ps).runFrom .initial = (r'.renderTop base ps).runFrom .initial ∨
      ∃ e s, (r.renderTop base ps).runFrom .initial = (.error e, s) ∧
        s.writes <:+ ((r'.renderTop base ps).runFrom .initial).2.writes ∧
          Cut r r' s ((r'.renderTop base ps).runFrom .initial) e :=
  (renderTop_truncates h base ps .initial).2

end Renderer

/-! ### Sinks that fail -/

/-- Accepts `n` texts, whatever they are, and refuses the next one. -/
def Sink.FailsAfter (n : Nat) (sink : Sink) : Prop :=
  ∀ accepted w, (accepted.length < n → sink accepted w = true) ∧
    (accepted.length = n → sink accepted w = false)

theorem Sink.FailsAfter.length_le {n : Nat} {sink : Sink} (hsink : sink.FailsAfter n)
    {ws : List Write} (h : ∀ w older, w :: older <:+ ws → sink older w = true) : ws.length ≤ n := by
  induction ws with
  | nil => exact Nat.zero_le n
  | cons w ws ih =>
    have hle := ih fun w' older hsuffix => h w' older (hsuffix.trans (List.suffix_cons w ws))
    -- the latest text was accepted after fewer than `n` others
    have hne : ws.length ≠ n := fun heq => by
      have hrefused := (hsink ws w).2 heq
      rw [h w ws List.suffix_rfl] at hrefused
      cases hrefused
    exact Nat.lt_of_le_of_ne hle hne

theorem Sink.failsAfter_ofCapacity (n : Nat) : (Sink.ofCapacity n).FailsAfter n := by
  refine fun accepted w => ⟨fun h => decide_eq_true h, fun h => decide_eq_false ?_⟩
  rw [h]
  exact Nat.lt_irrefl n

/-! ### Templates -/

namespace Template

open Renderer

def renderer (t : Template) (env : Env) (bound : Limit → Nat) (sink : Sink) : Renderer :=
  ⟨env.withBounds bound, t.config.withBounds bound, sink, true⟩

/-- The moments of a rendering under some bounds. -/
def moments (t : Template) (env : Env) (bound : Limit → Nat) (sink : Sink) : Set Moment :=
  {m | (Moment.start (t.renderer env bound sink) t.location t.parts).Leads
    (t.renderer env bound sink) m}

variable {t : Template} {root : Root}

theorem bound_renderer (env : Env) (bound : Limit → Nat) (sink : Sink) :
    (t.renderer env bound sink).config.settings.bound = bound :=
  Settings.bound_withBounds t.config.settings bound

theorem render_withBounds_of_open {env : Env} (henv : t.config.open? root = .ok env)
    (bound : Limit → Nat) (sink : Sink) :
    (t.withBounds bound).render root sink =
      ⟨(((t.renderer env bound sink).renderTop t.location t.parts).runFrom .initial).1,
        (((t.renderer env bound sink).renderTop t.location t.parts).runFrom .initial).2⟩ :=
  render_eq (t := t.withBounds bound) (Configuration.open?_withBounds henv bound) sink

theorem render_withBounds_of_error {e : EvalError} (he : t.config.open? root = .error e)
    (bound : Limit → Nat) (sink : Sink) :
    (t.withBounds bound).render root sink = ⟨.error (.eval e), .initial⟩ := by
  have hopen : (t.withBounds bound).config.open? root = .error e :=
    Configuration.open?_withBounds_error he bound
  rw [render, hopen]

theorem used_render_withBounds_le (bound : Limit → Nat) (sink : Sink) (kind : Limit) :
    ((t.withBounds bound).render root sink).state.used kind ≤ bound kind := by
  cases hopen : t.config.open? root with
  | error e =>
    rw [render_withBounds_of_error hopen]
    cases kind <;> exact Nat.zero_le _
  | ok env =>
    have hle := used_renderTop_le (t.renderer env bound sink) t.location t.parts kind
    rw [bound_renderer] at hle
    rw [render_withBounds_of_open hopen]
    exact hle

theorem written_render_withBounds (bound : Limit → Nat) (sink : Sink) :
    ((t.withBounds bound).render root sink).state.written =
      ((t.withBounds bound).render root sink).output.utf8ByteSize := by
  cases hopen : t.config.open? root with
  | error e =>
    rw [render_withBounds_of_error hopen]
    rfl
  | ok env =>
    rw [render_withBounds_of_open hopen]
    exact written_renderTop (t.renderer env bound sink) t.location t.parts

/-- A rendering that succeeds comes to its end, and of each thing that is bounded it has used the most
that was spent at any of its moments. -/
theorem used_render_withBounds {bound : Limit → Nat} {sink : Sink}
    (hok : ((t.withBounds bound).render root sink).outcome = .ok ()) :
    ∃ env, t.config.open? root = .ok env ∧
      (∃ m ∈ t.moments env bound sink, m.tasks = [] ∧
        m.state = ((t.withBounds bound).render root sink).state) ∧
      ∀ kind, IsGreatest ((fun m => m.spent kind) '' t.moments env bound sink)
        (((t.withBounds bound).render root sink).state.used kind) := by
  cases hopen : t.config.open? root with
  | error e =>
    rw [render_withBounds_of_error hopen] at hok
    cases hok
  | ok env =>
    obtain ⟨m, hleads, hdone, hfinal⟩ :=
      renderTop_leads (r := t.renderer env bound sink) t.location t.parts
    rw [render_withBounds_of_open hopen, hfinal] at hok ⊢
    have houtcome : outcomeOf m.failure = .ok () := hok
    have hrunning : m.failure = none := by
      rw [← failureOf_outcomeOf m.failure, houtcome]
      rfl
    exact ⟨env, rfl, ⟨m, hleads, hdone, rfl⟩, Moment.isGreatest_used hleads hdone hrunning⟩

section

variable (hfunctions : ∀ f ∈ t.config.functions.functions, f.IgnoresBounds)

include hfunctions

/-- Lower bounds and a sink that accepts less are all that tells two renderers of a template apart. -/
theorem renderer_tightens (env : Env) {low high : Limit → Nat}
    (hle : ∀ kind, low kind ≤ high kind) {sink sink' : Sink}
    (hsink : ∀ accepted w, sink accepted w = true → sink' accepted w = true) :
    (t.renderer env low sink).Tightens (t.renderer env high sink') where
  select terms current := by
    have hsame := fun bound => selectTerms_withBounds hfunctions env bound terms current
    exact congrArg RenderM.evaluate ((hsame low).trans (hsame high).symm)
  backend := rfl
  signatures := rfl
  escapeHtml := rfl
  includer := rfl
  keepsCompiled := rfl
  bound kind := by
    rw [bound_renderer, bound_renderer]
    exact hle kind
  sink := hsink

theorem render_lower (root : Root) {low high : Limit → Nat} (hle : ∀ kind, low kind ≤ high kind)
    (sink : Sink) :
    (t.withBounds low).render root sink = (t.withBounds high).render root sink ∨
      ∃ kind, ((t.withBounds low).render root sink).outcome = .error (.limit kind (low kind)) ∧
        ((t.withBounds low).render root sink).state.writes <:+
          ((t.withBounds high).render root sink).state.writes ∧
          (((t.withBounds high).render root sink).outcome = .ok () →
            low kind < ((t.withBounds high).render root sink).state.used kind) := by
  cases hopen : t.config.open? root with
  | error e =>
    left
    rw [render_withBounds_of_error hopen, render_withBounds_of_error hopen]
  | ok env =>
    rw [render_withBounds_of_open hopen, render_withBounds_of_open hopen]
    have htightens := renderer_tightens hfunctions env hle fun accepted w (h : sink accepted w = true) => h
    rcases htightens.renderTop_cases t.location t.parts with hsame | ⟨e, s, hrun, hwrites, hcut⟩
    · rw [hsame]
      exact .inl rfl
    · rw [hrun]
      cases hcut with
      | limit kind hless hused =>
        rw [bound_renderer] at hused
        refine .inr ⟨kind, by rw [bound_renderer], hwrites, fun hok => hused ?_⟩
        exact congrArg Except.isOk hok
      | sink w hrefused haccepted =>
        -- the two have one sink, so it does not tell them apart
        have hsink : (t.renderer env low sink).sink = (t.renderer env high sink).sink := rfl
        rw [hsink, haccepted] at hrefused
        cases hrefused

/-- A sink that fails after `n` texts gets the first `n` texts of the rendering. -/
theorem render_failsAfter (root : Root) (bound : Limit → Nat) {n : Nat} {sink : Sink}
    (hsink : sink.FailsAfter n) :
    ((t.withBounds bound).render root sink).state.writes.reverse =
      ((t.withBounds bound).render root .unlimited).state.writes.reverse.take n := by
  cases hopen : t.config.open? root with
  | error e =>
    rw [render_withBounds_of_error hopen, render_withBounds_of_error hopen]
    exact List.take_nil.symm
  | ok env =>
    rw [render_withBounds_of_open hopen, render_withBounds_of_open hopen]
    let r := t.renderer env bound sink
    have htightens := renderer_tightens hfunctions env (fun kind => Nat.le_refl (bound kind))
      fun accepted w (_ : sink accepted w = true) => (rfl : Sink.unlimited accepted w = true)
    have hlength : ((r.renderTop t.location t.parts).runFrom .initial).2.writes.length ≤ n :=
      hsink.length_le fun w older => accepted_of_renderTop r t.location t.parts
    rcases htightens.renderTop_cases t.location t.parts with hsame | ⟨e, s, hrun, hwrites, hcut⟩
    · rw [← hsame]
      refine (List.take_of_length_le ?_).symm
      rw [List.length_reverse]
      exact hlength
    · rw [hrun] at hlength ⊢
      -- under the same bounds it was the sink that refused a text, and it does so after n of them
      have hfull : s.writes.length = n := by
        cases hcut with
        | limit kind hless =>
          rw [bound_renderer, bound_renderer] at hless
          exact absurd hless (Nat.lt_irrefl _)
        | sink w hrefused =>
          refine Nat.le_antisymm hlength (Nat.le_of_not_lt fun hless => ?_)
          have haccepted : (t.renderer env bound sink).sink s.writes w = true :=
            (hsink s.writes w).1 hless
          rw [haccepted] at hrefused
          cases hrefused
      rw [← hfull, ← List.length_reverse]
      exact (List.prefix_iff_eq_take.mp (List.reverse_prefix.mpr hwrites))

/-- Lower bounds only truncate, and exactly at the bound. What is written under them is a prefix of
what is written under higher ones. If the rendering under the higher ones succeeds, it has used the most
bytes, visits and includes inside each other that were spent at any of its moments. The other one
succeeds just if these are within each of its bounds; then the two are the same, and otherwise it fails
with a limit. A sink that fails after `n` texts has got the first `n`. -/
theorem render_withBounds (root : Root) {low high : Limit → Nat} (hle : ∀ kind, low kind ≤ high kind)
    (sink : Sink) :
    let narrow := (t.withBounds low).render root sink
    let wide := (t.withBounds high).render root sink
    (∃ rest, narrow.output ++ rest = wide.output) ∧
      wide.state.used .outputSize = wide.output.utf8ByteSize ∧
      (wide.outcome = .ok () →
        (∃ env, t.config.open? root = .ok env ∧
          (∃ m ∈ t.moments env high sink, m.tasks = [] ∧ m.state = wide.state) ∧
          ∀ kind, IsGreatest ((fun m => m.spent kind) '' t.moments env high sink)
            (wide.state.used kind)) ∧
          (narrow.outcome = .ok () ↔ ∀ kind, wide.state.used kind ≤ low kind) ∧
          (narrow.outcome = .ok () → narrow = wide) ∧
          (narrow.outcome ≠ .ok () → ∃ kind, narrow.outcome = .error (.limit kind (low kind)))) ∧
      ∀ (n : Nat) (failing : Sink), failing.FailsAfter n →
        ((t.withBounds high).render root failing).state.writes.reverse =
          ((t.withBounds high).render root .unlimited).state.writes.reverse.take n := by
  intro narrow wide
  have hcases : narrow = wide ∨ _ := render_lower hfunctions root hle sink
  refine ⟨?_, written_render_withBounds high sink, fun hok => ?_, fun n failing hfailing =>
    render_failsAfter hfunctions root high hfailing⟩
  · rcases hcases with hsame | ⟨_, _, hwrites, _⟩
    · exact ⟨"", by rw [hsame, String.append_empty]⟩
    · exact RenderState.output_append hwrites
  · refine ⟨used_render_withBounds hok, ?_⟩
    rcases hcases with hsame | ⟨kind, hlimit, _, hused⟩
    · have hnarrow : narrow.outcome = .ok () := by rw [hsame, hok]
      refine ⟨⟨fun _ kind => ?_, fun _ => hnarrow⟩, fun _ => hsame, fun hne => absurd hnarrow hne⟩
      rw [← hsame]
      exact used_render_withBounds_le low sink kind
    · have hfails : narrow.outcome ≠ .ok () := fun h => by
        rw [hlimit] at h
        cases h
      refine ⟨⟨fun h => absurd h hfails, fun h => ?_⟩, fun h => absurd h hfails,
        fun _ => ⟨kind, hlimit⟩⟩
      exact absurd (h kind) (Nat.not_le.mpr (hused hok))

end

/-- Two visits that write two bytes each and an include of two more: under these bounds all is done,
and under any of them less by one it is not. -/
theorem render_withBounds_atTheBound :
    let includer : Includer := .ofFunction fun call => .ok ⟨call.name, "cd"⟩
    let t : Template := ⟨none, [.loop [.path .root [.wildcard]] [.text "ab"], .insertion "a"],
      Configuration.default.withIncluder includer⟩
    let d : Json.Document := ⟨.array [.bool true, .bool true], by
      simp [Json.Ordered, Json.OrderedItems]⟩
    let bounds (bytes visits depth : Nat) : Limit → Nat := fun kind => match kind with
      | .outputSize => bytes
      | .iterations => visits
      | .includeDepth => depth
    let under (bytes visits depth : Nat) (sink : Sink) : Rendering :=
      (t.withBounds (bounds bytes visits depth)).render (.json d) sink
    let fails (r : Rendering) := ∃ kind bound, r.outcome = .error (.limit kind bound)
    (under 9 9 9 .unlimited).outcome = .ok () ∧
      (∀ kind, (under 9 9 9 .unlimited).state.used kind = bounds 6 2 1 kind) ∧
      (under 6 2 1 .unlimited).outcome = .ok () ∧ (under 6 2 1 .unlimited).output = "ababcd" ∧
      fails (under 5 9 9 .unlimited) ∧ fails (under 9 1 9 .unlimited) ∧
      fails (under 9 9 0 .unlimited) ∧
      (under 9 9 9 (.ofCapacity 1)).state.writes.reverse = [⟨"ab", false⟩] := by
  intro includer t d bounds under fails
  have hoption : (under 9 9 9 .unlimited).outcome.toOption = some () := by decide +kernel
  have hwide : (under 9 9 9 .unlimited).outcome = .ok () := by
    cases hcases : (under 9 9 9 .unlimited).outcome with
    | ok u => rfl
    | error e =>
      rw [hcases] at hoption
      cases hoption
  have hused : ∀ kind, (under 9 9 9 .unlimited).state.used kind = bounds 6 2 1 kind := by
    intro kind
    cases kind <;> decide +kernel
  have houtput : (under 9 9 9 .unlimited).output = "ababcd" := by decide +kernel
  have hlower {bytes visits depth : Nat} (hbytes : bytes ≤ 9) (hvisits : visits ≤ 9)
      (hdepth : depth ≤ 9) : ∀ kind, bounds bytes visits depth kind ≤ bounds 9 9 9 kind
    | .outputSize => hbytes
    | .iterations => hvisits
    | .includeDepth => hdepth
  have hfails {low : Limit → Nat} (hle : ∀ kind, low kind ≤ bounds 9 9 9 kind) (kind : Limit)
      (hless : low kind < bounds 6 2 1 kind) :
      fails ((t.withBounds low).render (.json d) .unlimited) := by
    obtain ⟨_, _, hlimits, _⟩ :=
      render_withBounds (t := t) (fun _ => Builtin.ignoresBounds) (.json d) hle .unlimited
    obtain ⟨_, hiff, _, hlimit⟩ := hlimits hwide
    obtain ⟨kind, hlimit⟩ := hlimit fun hok => by
      have hfits := hiff.mp hok kind
      rw [hused] at hfits
      exact absurd hfits (Nat.not_le.mpr hless)
    exact ⟨kind, _, hlimit⟩
  obtain ⟨_, _, hlimits, hsinks⟩ := render_withBounds (t := t) (fun _ => Builtin.ignoresBounds)
    (.json d) (hlower (by decide : 6 ≤ 9) (by decide : 2 ≤ 9) (by decide : 1 ≤ 9)) .unlimited
  obtain ⟨_, hiff, hsame, _⟩ := hlimits hwide
  have hexact : (under 6 2 1 .unlimited).outcome = .ok () := hiff.mpr fun kind => (hused kind).le
  refine ⟨hwide, hused, hexact, (congrArg Rendering.output (hsame hexact)).trans houtput, ?_, ?_, ?_,
    ?_⟩
  · exact hfails (hlower (by decide) (by decide) (by decide)) .outputSize (by decide)
  · exact hfails (hlower (by decide) (by decide) (by decide)) .iterations (by decide)
  · exact hfails (hlower (by decide) (by decide) (by decide)) .includeDepth (by decide)
  · rw [hsinks 1 (.ofCapacity 1) (Sink.failsAfter_ofCapacity 1)]
    decide +kernel

end Template

end PathQuery
