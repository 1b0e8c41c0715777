import PathQuery.Proofs.Template.Lockstep

/-!
# Texts compiled once

A rendering keeps the parts of the texts that it includes by location, and takes them from there at the
next include that is answered with the same location. As long as the text at a location stays the same,
what is kept is what compiling the text would give, and nobody can tell.
-/

namespace PathQuery

open RenderM Renderer

/-- Answers may depend on the calls before, but the text at a location is always the same. -/
def Includer.Serves (includer : Includer) (content : String → String) : Prop :=
  ∀ (calls : List IncludeCall) (call : IncludeCall) (found : Included),
    includer calls call = .ok found → found.content = content found.location

/-! ### What is kept -/

/-- What is kept for a location are the parts of the text there. -/
def RenderState.Faithful (signatures : Signatures) (content : String → String) (s : RenderState) :
    Prop :=
  ∀ location parts, s.compiled.lookup location = some parts →
    parseTemplate signatures (content location) = .ok parts

def RenderState.forgetful (s : RenderState) : RenderState := { s with compiled := [] }

section

variable {signatures : Signatures} {content : String → String} {s : RenderState}

theorem RenderState.Faithful.of_compiled (h : s.Faithful signatures content) {s' : RenderState}
    (hsame : s'.compiled = s.compiled) : s'.Faithful signatures content := by
  intro location parts hlookup
  rw [hsame] at hlookup
  exact h location parts hlookup

theorem RenderState.Faithful.keep (h : s.Faithful signatures content) {location : String}
    {parts : List Part} (hparts : parseTemplate signatures (content location) = .ok parts) :
    RenderState.Faithful signatures content
      { s with compiled := (location, parts) :: s.compiled } := by
  intro location' parts' hlookup
  cases lookup_kept hlookup with
  | inl hnew =>
    obtain ⟨rfl, rfl⟩ := hnew
    exact hparts
  | inr hold => exact h location' parts' hold

end

namespace Renderer

variable {r : Renderer} {content : String → String}

/-- Kept or not, the parts of what is found are those that its text compiles to. -/
theorem partsOf_faithful {s : RenderState}
    (hs : s.Faithful r.config.functions.signatures content) (name : String) {found : Included}
    (hfound : found.content = content found.location) :
    ∃ compiled, (r.partsOf name found).runFrom s =
        ((parseTemplate r.config.functions.signatures found.content).mapError (.included name),
          { s with compiled := compiled }) ∧
      RenderState.Faithful r.config.functions.signatures content { s with compiled := compiled } ∧
      (r.keepsCompiled = false → compiled = s.compiled) := by
  rw [runFrom_partsOf]
  cases hlookup : s.compiled.lookup found.location with
  | some parts =>
    have hparts := hs found.location parts hlookup
    rw [hfound, hparts]
    exact ⟨s.compiled, rfl, hs, fun _ => rfl⟩
  | none =>
    cases hparts : parseTemplate r.config.functions.signatures found.content with
    | error e => exact ⟨s.compiled, rfl, hs, fun _ => rfl⟩
    | ok parts =>
      cases hkeeps : r.keepsCompiled with
      | false => exact ⟨s.compiled, rfl, hs, fun _ => rfl⟩
      | true =>
        refine ⟨(found.location, parts) :: s.compiled, rfl, ?_, fun h => Bool.noConfusion h⟩
        rw [hfound] at hparts
        exact hs.keep hparts

/-! ### With and without -/

/-- From a state whose kept parts are right, the first computation does what the second one does from
the same state with nothing kept. The first one keeps nothing wrong, and the second one nothing. -/
def Recompiles (r : Renderer) (content : String → String) {α : Type} (m m' : RenderM α) : Prop :=
  ∀ s : RenderState, s.Faithful r.config.functions.signatures content →
    m'.runFrom s.forgetful = ((m.runFrom s).1, (m.runFrom s).2.forgetful) ∧
      (m.runFrom s).2.Faithful r.config.functions.signatures content

namespace Recompiles

variable {α β : Type}

theorem of_compiled {m : RenderM α}
    (h : ∀ s, m.runFrom s.forgetful = ((m.runFrom s).1, (m.runFrom s).2.forgetful) ∧
      (m.runFrom s).2.compiled = s.compiled) : Recompiles r content m m :=
  fun s hs => ⟨(h s).1, hs.of_compiled (h s).2⟩

theorem pure (x : α) : Recompiles r content (Pure.pure x) (Pure.pure x) :=
  of_compiled fun _ => ⟨rfl, rfl⟩

theorem bind {m m' : RenderM α} {k k' : α → RenderM β} (hm : Recompiles r content m m')
    (hk : ∀ x, Recompiles r content (k x) (k' x)) : Recompiles r content (m >>= k) (m' >>= k') := by
  intro s hs
  obtain ⟨hrun', hkept⟩ := hm s hs
  cases hrun : m.runFrom s with
  | mk outcome s₁ =>
    rw [hrun] at hrun' hkept
    cases outcome with
    | error e =>
      rw [runFrom_bind_error hrun, runFrom_bind_error hrun']
      exact ⟨rfl, hkept⟩
    | ok x =>
      rw [runFrom_bind_ok hrun, runFrom_bind_ok hrun']
      exact hk x s₁ hkept

theorem within {m m' : RenderM α} (items : List Item) (h : Recompiles r content m m') :
    Recompiles r content (RenderM.within items m) (RenderM.within items m') := by
  intro s hs
  obtain ⟨hrun', hkept⟩ := h { s with context := (s.context.enter items).2 } hs
  rw [runFrom_within, runFrom_within]
  dsimp only [RenderState.forgetful] at hrun' ⊢
  rw [hrun']
  exact ⟨rfl, hkept⟩

theorem write (sink : Sink) (bound : Nat) (w : Write) :
    Recompiles r content (RenderM.write sink bound w) (RenderM.write sink bound w) := by
  refine of_compiled fun s => ?_
  rw [runFrom_write, runFrom_write]
  by_cases hover : bound < s.written + w.text.utf8ByteSize
  · simp [RenderState.forgetful, hover]
  · by_cases haccepted : sink s.writes w = true
    · simp [RenderState.forgetful, hover, haccepted]
    · simp [RenderState.forgetful, hover, haccepted]

theorem tick (bound : Nat) : Recompiles r content (RenderM.tick bound) (RenderM.tick bound) := by
  refine of_compiled fun s => ?_
  rw [runFrom_tick, runFrom_tick]
  by_cases hleft : s.iterations < bound
  · simp [RenderState.forgetful, hleft]
  · simp [RenderState.forgetful, hleft]

theorem found {includer : Includer} (hserves : includer.Serves content) (depth : Nat)
    (call : IncludeCall) {k k' : Included → List Part → RenderM α}
    (hk : ∀ found parts, Recompiles r content (k found parts) (k' found parts)) :
    Recompiles r content
      (ask includer depth call >>= fun found => r.partsOf call.name found >>= k found)
      (ask includer depth call >>= fun found =>
        partsOf { r with keepsCompiled := false } call.name found >>= k' found) := by
  intro s hs
  have hask := runFrom_ask includer depth call s
  have hask' := runFrom_ask includer depth call s.forgetful
  cases hanswer : includer s.calls call with
  | error failure =>
    have hanswer' : includer s.forgetful.calls call = .error failure := hanswer
    rw [hanswer] at hask
    rw [hanswer'] at hask'
    rw [runFrom_bind_error hask, runFrom_bind_error hask']
    exact ⟨rfl, hs⟩
  | ok found =>
    have hanswer' : includer s.forgetful.calls call = .ok found := hanswer
    rw [hanswer] at hask
    rw [hanswer'] at hask'
    rw [runFrom_bind_ok hask, runFrom_bind_ok hask']
    have hfound := hserves _ _ _ hanswer
    -- the same text is compiled or has been, and the rest starts from faithful states again
    have hcompiled : Recompiles r content (r.partsOf call.name found)
        (partsOf { r with keepsCompiled := false } call.name found) := by
      intro s hs
      obtain ⟨compiled, hrun, hkept, _⟩ := partsOf_faithful hs call.name hfound
      have hnone : s.forgetful.Faithful r.config.functions.signatures content :=
        fun location parts hlookup => by cases hlookup
      obtain ⟨compiled', hrun', _, hnothing⟩ :=
        partsOf_faithful (r := { r with keepsCompiled := false }) hnone call.name hfound
      rw [hrun, hrun', hnothing rfl]
      exact ⟨rfl, hkept⟩
    have hrest := hcompiled.bind (hk found)
      { s with calls := call :: s.calls, deepest := max s.deepest depth } hs
    exact hrest

end Recompiles

/-- A rendering that keeps parts and one that compiles every text anew go in lockstep. -/
def recompiling (r : Renderer) (content : String → String) :
    Lockstep r { r with keepsCompiled := false } where
  rel _ m m' := Recompiles r content m m'
  inner _ m m' := Recompiles r content m m'
  tree := ⟨rfl⟩
  mono _ h := h
  nothing _ := .pure ()
  andThen hm hk := hm.bind fun _ => hk
  select _ hk := Recompiles.bind (.of_compiled fun _ => ⟨rfl, rfl⟩) hk
  write _ _ _ := .write _ _ _
  inner_of_rel h := h
  inner_andThen hm hk := hm.bind fun _ => hk
  inner_tick _ := .tick _
  inner_index _ _ := .of_compiled fun _ => ⟨rfl, rfl⟩
  within items h := h.within items

theorem renderTop_recompiles
    (hserves : ∀ includer, r.config.includer = some includer → includer.Serves content)
    (base : Option String) (ps : List Part) :
    Recompiles r content (r.renderTop base ps)
      (renderTop { r with keepsCompiled := false } base ps) :=
  (r.recompiling content).renderTop rfl rfl (fun _ _ => .of_compiled fun _ => ⟨rfl, rfl⟩)
    (fun _ includer hincluder depth call _ _ hk => .found (hserves includer hincluder) depth call hk)
    base ps

end Renderer

/-! ### Templates -/

namespace Template

/-- Renders like `render`, but compiles an included text anew at every include. -/
def renderAnew (t : Template) (root : Root) (sink : Sink) : Rendering :=
  match t.config.open? root with
  | .error e => ⟨.error (.eval e), .initial⟩
  | .ok env =>
    let r : Renderer := ⟨env, t.config, sink, false⟩
    let (outcome, state) := (r.renderTop t.location t.parts).runFrom .initial
    ⟨outcome, state⟩

variable {t : Template} {content : String → String}
  (hserves : ∀ includer, t.config.includer = some includer → includer.Serves content)

include hserves

theorem renderAnew_eq (root : Root) (sink : Sink) :
    t.renderAnew root sink = ⟨(t.render root sink).outcome, (t.render root sink).state.forgetful⟩ := by
  unfold renderAnew render
  cases t.config.open? root with
  | error e => rfl
  | ok env =>
    have hempty : RenderState.initial.Faithful t.config.functions.signatures content :=
      fun location parts hlookup => by cases hlookup
    obtain ⟨hrun, _⟩ := renderTop_recompiles (r := ⟨env, t.config, sink, true⟩) hserves t.location
      t.parts .initial hempty
    have hrun' : (renderTop ⟨env, t.config, sink, false⟩ t.location t.parts).runFrom .initial = _ := hrun
    simp only [hrun']

/-- If the text at a location is always the same, a rendering that keeps the parts of included texts
cannot be told from one that compiles every included text anew and keeps nothing: the two have the same
outcome, write the same texts and put the same questions to the includer. -/
theorem render_eq_anew (root : Root) (sink : Sink) :
    let kept := t.render root sink
    let anew := t.renderAnew root sink
    kept.outcome = anew.outcome ∧ kept.output = anew.output ∧
      kept.state.writes = anew.state.writes ∧ kept.state.calls = anew.state.calls ∧
        anew.state.compiled = [] := by
  intro kept anew
  have hanew : anew = ⟨kept.outcome, kept.state.forgetful⟩ := renderAnew_eq hserves root sink
  rw [hanew]
  exact ⟨rfl, rfl, rfl, rfl, rfl⟩

omit hserves in
/-- The text that two names lead to is compiled once; the third name leads nowhere. -/
theorem render_eq_anew_names :
    let includer : Includer := fun _ call =>
      if call.name = "c" then .error (.noTemplate "c") else .ok ⟨"x", "{{1+1}}"⟩
    let t : Template := ⟨none, [.insertion "a", .insertion "b", .insertion "c"],
      Configuration.default.withIncluder includer⟩
    let d : Json.Document := ⟨.null, trivial⟩
    let kept := t.render (.json d) .unlimited
    let anew := t.renderAnew (.json d) .unlimited
    includer.Serves (fun _ => "{{1+1}}") ∧ kept.state.compiled.length = 1 ∧
      kept.outcome = anew.outcome ∧ anew.output = "22" ∧
        anew.state.calls = [⟨"c", none⟩, ⟨"b", none⟩, ⟨"a", none⟩] := by
  intro includer t d kept anew
  have hincluder : includer.Serves (fun _ => "{{1+1}}") := by
    intro calls call found h
    dsimp only [includer] at h
    split at h
    · cases h
    · cases h
      rfl
  have hserves : ∀ other, t.config.includer = some other → other.Serves (fun _ => "{{1+1}}") :=
    fun other h => Option.some.inj h ▸ hincluder
  obtain ⟨houtcome, houtput, _, hcalls, _⟩ := render_eq_anew hserves (.json d) .unlimited
  refine ⟨hincluder, by decide +kernel, houtcome, ?_, ?_⟩
  · rw [← houtput]
    decide +kernel
  · rw [← hcalls]
    decide +kernel

end Template
end PathQuery
