import PathQuery.Proofs.Eval.Consulted
import PathQuery.Proofs.Template.Budgets
import PathQuery.Proofs.Template.Lockstep
import PathQuery.Proofs.Text.Escapes

/-!
# Renderings that escape

Whether a rendering escapes makes a difference where the value of a tag is written, and nowhere else: two
renderings that differ in this alone write text after text in step, until one of them has no room left.
-/

namespace PathQuery

/-! ### Escaped texts -/

/-- What is written in place of a tag, escaped; texts of the template stay as they are. -/
def Write.escaped (w : Write) : Write :=
  if w.substituted then { w with text := escapeHtml w.text } else w

/-- The sink cannot tell an escaped text from the text. -/
def Sink.IgnoresEscaping (sink : Sink) : Prop :=
  ∀ accepted w, sink (accepted.map Write.escaped) w.escaped = sink accepted w

theorem Sink.ignoresEscaping_unlimited : Sink.unlimited.IgnoresEscaping := fun _ _ => rfl

/-! ### Changed configurations -/

def Settings.withEscapeHtml (s : Settings) (escape : Bool) : Settings := { s with escapeHtml := escape }

def Env.withEscapeHtml (env : Env) (escape : Bool) : Env :=
  env.withSettings (env.settings.withEscapeHtml escape)

def Template.withEscapeHtml (t : Template) (escape : Bool) : Template :=
  { t with config := t.config.withEscapeHtml escape }

/-- The function does not consult whether templates escape. -/
def Function.IgnoresEscaping (f : Function) : Prop :=
  ∀ (env : Env) (escape : Bool) (name : String) (args : List Argument) (context input : List Item),
    f.apply (env.withEscapeHtml escape) name args context input =
      f.apply env name args context input

theorem Settings.evaluates_withEscapeHtml (s : Settings) (escape : Bool) :
    s.Evaluates (s.withEscapeHtml escape) := ⟨rfl, rfl, rfl⟩

theorem Builtin.ignoresEscaping {f : Function} (hf : f ∈ Registry.builtins.functions) :
    f.IgnoresEscaping :=
  fun env escape => apply_withSettings (env.settings.evaluates_withEscapeHtml escape) hf

theorem Configuration.open?_withEscapeHtml (c : Configuration) (escape : Bool) (root : Root) :
    (c.withEscapeHtml escape).open? root =
      (c.open? root).map fun env => env.withEscapeHtml escape := by
  simp only [open?, withEscapeHtml]
  cases openRoot? c.openers root with
  | none => rfl
  | some b => rfl

/-! ### Computations in step -/

/-- The outcome of a computation that had no room for a text. -/
def RenderM.Overflows {α : Type} (outcome : Except RenderError α) : Prop :=
  ∃ bound, outcome = .error (.limit .outputSize bound)

/-- The same state with what has been written escaped, whatever has been counted of it. -/
def RenderState.escaped (s : RenderState) (written : Nat) : RenderState :=
  { s with writes := s.writes.map Write.escaped, written := written }

namespace RenderM

variable {α β : Type}

/-- The second computation does what the first one does and writes escaped what that writes, unless one of
them has no room left. -/
def Escapes (m m' : RenderM α) : Prop :=
  ∀ s written, (Overflows (m.runFrom s).1 ∨ Overflows (m'.runFrom (s.escaped written)).1) ∨
    ∃ written', m'.runFrom (s.escaped written) = ((m.runFrom s).1, (m.runFrom s).2.escaped written')

namespace Escapes

theorem silent {m : RenderM α} (h : ∀ s written,
    m.runFrom (s.escaped written) = ((m.runFrom s).1, (m.runFrom s).2.escaped written)) :
    Escapes m m :=
  fun s written => .inr ⟨written, h s written⟩

theorem bind {m m' : RenderM α} {k k' : α → RenderM β} (hm : Escapes m m')
    (hk : ∀ x, Escapes (k x) (k' x)) : Escapes (m >>= k) (m' >>= k') := by
  intro s written
  cases hrun : m.runFrom s with
  | mk outcome s₁ =>
    have hsteps := hm s written
    rw [hrun] at hsteps
    rcases hsteps with (⟨bound, rfl⟩ | ⟨bound, hover⟩) | ⟨written', hrun'⟩
    · exact .inl (.inl ⟨bound, by rw [runFrom_bind_error hrun]⟩)
    · have hrun' : m'.runFrom (s.escaped written) = (.error _, _) := Prod.ext hover rfl
      exact .inl (.inr ⟨bound, by rw [runFrom_bind_error hrun']⟩)
    · cases outcome with
      | error e =>
        rw [runFrom_bind_error hrun, runFrom_bind_error hrun']
        exact .inr ⟨written', rfl⟩
      | ok x =>
        rw [runFrom_bind_ok hrun, runFrom_bind_ok hrun']
        exact hk x s₁ written'

theorem within {m m' : RenderM α} (items : List Item) (h : Escapes m m') :
    Escapes (RenderM.within items m) (RenderM.within items m') := by
  intro s written
  have hinside := h { s with context := (s.context.enter items).2 } written
  rw [runFrom_within, runFrom_within]
  rcases hinside with hover | ⟨written', hrun'⟩
  · exact .inl hover
  · refine .inr ⟨written', ?_⟩
    dsimp only [RenderState.escaped] at hrun' ⊢
    rw [hrun']

theorem write {sink : Sink} (hsink : sink.IgnoresEscaping) (bound : Nat) (w : Write) :
    Escapes (RenderM.write sink bound w) (RenderM.write sink bound w.escaped) := by
  intro s written
  rw [runFrom_write, runFrom_write]
  by_cases hover : bound < s.written + w.text.utf8ByteSize
  · exact .inl (.inl ⟨bound, by rw [if_pos hover]⟩)
  by_cases hover' : bound < (s.escaped written).written + w.escaped.text.utf8ByteSize
  · exact .inl (.inr ⟨bound, by rw [if_pos hover']⟩)
  rw [if_neg hover, if_neg hover']
  have hsame : sink (s.escaped written).writes w.escaped = sink s.writes w := hsink s.writes w
  rw [hsame]
  split
  · exact .inr ⟨_, rfl⟩
  · exact .inr ⟨written, rfl⟩

theorem tick (bound : Nat) : Escapes (RenderM.tick bound) (RenderM.tick bound) := by
  refine silent fun s written => ?_
  rw [runFrom_tick, runFrom_tick]
  by_cases hleft : s.iterations < bound
  · simp [RenderState.escaped, hleft]
  · simp [RenderState.escaped, hleft]

theorem ask (includer : Includer) (depth : Nat) (call : IncludeCall) :
    Escapes (RenderM.ask includer depth call) (RenderM.ask includer depth call) := by
  refine silent fun s written => ?_
  rw [runFrom_ask, runFrom_ask]
  rfl

theorem partsOf (r : Renderer) (name : String) (found : Included) :
    Escapes (r.partsOf name found) (r.partsOf name found) := by
  refine silent fun s written => ?_
  have hcompiled : (s.escaped written).compiled = s.compiled := rfl
  rw [runFrom_partsOf, runFrom_partsOf, hcompiled]
  cases s.compiled.lookup found.location with
  | some parts => rfl
  | none =>
    cases parseTemplate r.config.functions.signatures found.content with
    | error e => rfl
    | ok parts =>
      cases r.keepsCompiled with
      | false => rfl
      | true => rfl

end Escapes
end RenderM

/-! ### Renderings in step -/

namespace Renderer

open RenderM

def withEscapeHtml (r : Renderer) (escape : Bool) : Renderer :=
  { r with env := r.env.withEscapeHtml escape, config := r.config.withEscapeHtml escape }

section

variable {r : Renderer} (hfunctions : ∀ f ∈ r.config.functions.functions, f.IgnoresEscaping)

include hfunctions

theorem select_withEscapeHtml (escape : Bool) (terms : List Term) (current : List Item) :
    (r.withEscapeHtml escape).select terms current = r.select terms current :=
  congrArg RenderM.evaluate (selectTerms_withSettings
    (r.env.settings.evaluates_withEscapeHtml escape) (fun f hf => hfunctions f hf r.env escape) terms
    current)

end

theorem shown_withEscapeHtml (r : Renderer) (s : String) (substituted : Bool) :
    (r.withEscapeHtml true).shown s substituted =
      ((r.withEscapeHtml false).shown s substituted).escaped := by
  cases substituted with
  | false => rfl
  | true => rfl

/-- A rendering and one that escapes go in lockstep. -/
def escaping (r : Renderer) (hfunctions : ∀ f ∈ r.config.functions.functions, f.IgnoresEscaping)
    (hsink : r.sink.IgnoresEscaping) :
    Lockstep (r.withEscapeHtml false) (r.withEscapeHtml true) where
  rel _ m m' := Escapes m m'
  inner _ m m' := Escapes m m'
  tree := ⟨rfl⟩
  mono _ h := h
  nothing _ := .silent fun _ _ => rfl
  andThen hm hk := hm.bind fun _ => hk
  select terms hk := by
    rw [select_withEscapeHtml hfunctions, select_withEscapeHtml hfunctions]
    exact Escapes.bind (.silent fun _ _ => rfl) hk
  write _ s substituted := by
    rw [shown_withEscapeHtml]
    exact .write hsink _ _
  inner_of_rel h := h
  inner_andThen hm hk := hm.bind fun _ => hk
  inner_tick _ := .tick _
  inner_index _ _ := .silent fun _ _ => rfl
  within items h := h.within items

theorem renderTop_escapes (r : Renderer)
    (hfunctions : ∀ f ∈ r.config.functions.functions, f.IgnoresEscaping)
    (hsink : r.sink.IgnoresEscaping) (base : Option String) (ps : List Part) :
    Escapes ((r.withEscapeHtml false).renderTop base ps)
      ((r.withEscapeHtml true).renderTop base ps) := by
  refine (r.escaping hfunctions hsink).renderTop rfl rfl (fun _ _ => .silent fun _ _ => rfl) ?_ base ps
  intro needs includer _ depth call k k' hk
  exact (Escapes.ask includer depth call).bind fun found =>
    (Escapes.partsOf (r.withEscapeHtml false) call.name found).bind (hk found)

/-! ### What is written -/

def AllShown (r : Renderer) (ws : List Write) : Prop := ∀ w ∈ ws, ∃ s, w = r.shown s w.substituted

def Shows (r : Renderer) {α : Type} (m : RenderM α) : Prop :=
  ∀ s : RenderState, r.AllShown s.writes → r.AllShown (m.runFrom s).2.writes

namespace Shows

variable {r : Renderer} {α β : Type}

theorem of_keeps {m : RenderM α} (h : Keeps RenderState.writes m) : r.Shows m := by
  intro s hs
  rw [h s]
  exact hs

theorem bind {m : RenderM α} {k : α → RenderM β} (hm : r.Shows m) (hk : ∀ x, r.Shows (k x)) :
    r.Shows (m >>= k) := by
  intro s hs
  exact rel_after (R := fun s s' => r.AllShown s.writes → r.AllShown s'.writes) (fun _ h => h) m hk s
    (hm s hs)

theorem write (s : String) (substituted : Bool) :
    r.Shows (RenderM.write r.sink r.config.settings.maxOutputSize (r.shown s substituted)) := by
  intro state hstate
  rw [runFrom_write]
  split
  · exact hstate
  split
  · exact List.forall_mem_cons.mpr ⟨⟨s, rfl⟩, hstate⟩
  · exact hstate

end Shows

/-- A rendering writes bit by bit what the renderer shows. -/
def showing (r : Renderer) : Lockstep r r where
  rel _ m _ := r.Shows m
  inner _ m _ := r.Shows m
  tree := .refl r
  mono _ h := h
  nothing _ := .of_keeps (.pure ())
  andThen hm hk := hm.bind fun _ => hk
  select _ hk := Shows.bind (.of_keeps (.evaluate (fun _ _ => rfl) _)) hk
  write _ _ _ := .write _ _
  inner_of_rel h := h
  inner_andThen hm hk := hm.bind fun _ => hk
  inner_tick _ := .of_keeps (.tick (fun _ _ => rfl) _)
  inner_index _ _ := fun _ h => h
  within _ h := fun _ hs => h _ hs

theorem renderTop_shows (r : Renderer) (base : Option String) (ps : List Part) :
    r.Shows (r.renderTop base ps) := by
  refine r.showing.renderTop rfl rfl (fun _ e => .of_keeps (.throw e)) ?_ base ps
  intro needs includer _ depth call k k' hk
  refine Shows.bind (.of_keeps (.ask (fun _ _ _ => rfl) includer depth call)) fun found => ?_
  exact Shows.bind (.of_keeps (.partsOf (fun _ _ => rfl) r call.name found)) (hk found)

end Renderer
/-! ### Templates -/

namespace Template

variable {t : Template}

theorem render_withEscapeHtml_of_open {root : Root} {env : Env}
    (henv : t.config.open? root = .ok env) (sink : Sink) (escape : Bool) :
    let r : Renderer := ⟨env, t.config, sink, true⟩
    let ran := ((r.withEscapeHtml escape).renderTop t.location t.parts).runFrom .initial
    (t.withEscapeHtml escape).render root sink = ⟨ran.1, ran.2⟩ := by
  have hopen : (t.config.withEscapeHtml escape).open? root = .ok (env.withEscapeHtml escape) := by
    rw [Configuration.open?_withEscapeHtml, henv]
    rfl
  exact render_eq (t := t.withEscapeHtml escape) hopen sink

theorem render_withEscapeHtml_of_error {root : Root} {e : EvalError}
    (he : t.config.open? root = .error e) (sink : Sink) (escape : Bool) :
    (t.withEscapeHtml escape).render root sink = ⟨.error (.eval e), .initial⟩ := by
  have hopen : (t.withEscapeHtml escape).config.open? root = .error e := by
    change (t.config.withEscapeHtml escape).open? root = .error e
    rw [Configuration.open?_withEscapeHtml, he]
    rfl
  rw [render, hopen]

/-- Escaping touches what is written in place of tags and nothing else. Unless one of them has no room
left, a rendering and one that escapes come to the same and write as many texts in the same order: those
of the template as they are, those in place of tags escaped. So whatever stands in place of a tag in the
one that escapes has no markup. -/
theorem render_escaping (hfunctions : ∀ f ∈ t.config.functions.functions, f.IgnoresEscaping)
    (root : Root) {sink : Sink} (hsink : sink.IgnoresEscaping) :
    let plain := (t.withEscapeHtml false).render root sink
    let escaping := (t.withEscapeHtml true).render root sink
    (¬RenderM.Overflows plain.outcome → ¬RenderM.Overflows escaping.outcome →
      escaping.outcome = plain.outcome ∧
        escaping.state.writes = plain.state.writes.map Write.escaped) ∧
      ∀ w ∈ escaping.state.writes, w.substituted = true → ∀ c ∈ w.text.toList, isMarkup c = false := by
  intro plain escaping
  cases hopen : t.config.open? root with
  | error e =>
    have hplain : plain = ⟨.error (.eval e), .initial⟩ := render_withEscapeHtml_of_error hopen sink false
    have hescaping : escaping = ⟨.error (.eval e), .initial⟩ :=
      render_withEscapeHtml_of_error hopen sink true
    rw [hplain, hescaping]
    exact ⟨fun _ _ => ⟨rfl, rfl⟩, fun w hw => absurd hw List.not_mem_nil⟩
  | ok env =>
    let r : Renderer := ⟨env, t.config, sink, true⟩
    have hplain : plain = _ := render_withEscapeHtml_of_open hopen sink false
    have hescaping : escaping = _ := render_withEscapeHtml_of_open hopen sink true
    rw [hplain, hescaping]
    refine ⟨fun hroom hroom' => ?_, fun w hw hsubstituted c hc => ?_⟩
    · rcases r.renderTop_escapes hfunctions hsink t.location t.parts .initial 0 with hover | ⟨_, hrun⟩
      · exact absurd hover (not_or.mpr ⟨hroom, hroom'⟩)
      · exact ⟨(congrArg Prod.fst hrun :), (congrArg (fun ran => ran.2.writes) hrun :)⟩
    · have hnone : (r.withEscapeHtml true).AllShown RenderState.initial.writes :=
        fun w hw => absurd hw List.not_mem_nil
      obtain ⟨s, hshown⟩ := (r.withEscapeHtml true).renderTop_shows t.location t.parts .initial hnone w hw
      rw [hsubstituted] at hshown
      rw [hshown] at hc
      exact isMarkup_of_mem_escapeHtml hc

/-- A text with markup is escaped where a tag stands for it, and not where it stands in the template. -/
theorem render_escaping_texts :
    let t : Template := ⟨none, [.text "<", .value [.path .root []]], .default⟩
    let root : Root := .json ⟨.string "<", trivial⟩
    let plain := (t.withEscapeHtml false).render root .unlimited
    let escaping := (t.withEscapeHtml true).render root .unlimited
    plain.state.writes = [⟨"<", true⟩, ⟨"<", false⟩] ∧ escaping.outcome = .ok () ∧
      escaping.state.writes = [⟨"&lt;", true⟩, ⟨"<", false⟩] := by
  intro t root plain escaping
  have hwrites : plain.state.writes = [⟨"<", true⟩, ⟨"<", false⟩] := by decide +kernel
  have hplain : plain.outcome = .ok () := rfl
  have hescaping : escaping.outcome = .ok () := rfl
  have hroom : ∀ outcome : Except RenderError Unit, outcome = .ok () → ¬RenderM.Overflows outcome := by
    rintro outcome rfl ⟨bound, hover⟩
    cases hover
  obtain ⟨hstep, _⟩ := render_escaping (t := t) (fun _ => Builtin.ignoresEscaping) root
    Sink.ignoresEscaping_unlimited
  have hescaped := (hstep (hroom _ hplain) (hroom _ hescaping)).2
  refine ⟨hwrites, hescaping, hescaped.trans ?_⟩
  rw [hwrites]
  decide +kernel

end Template
end PathQuery
