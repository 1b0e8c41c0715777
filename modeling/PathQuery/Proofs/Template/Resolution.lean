import PathQuery.Proofs.Template.Budgets

/-!
# Includes are resolved where they are written

Texts that are being rendered are inside each other. An answer of the includer opens one, at the location
that the answer gives, and the end of its parts closes it. A directive is rendered while the text that it
is written in is the innermost one, so its name is looked up at the location of that text.
-/

namespace PathQuery

structure OpenText where
  location : Option String
  parts : List Part

/-- The questions that the directives of parts stand for in a text at a location. -/
def callsOf (location : Option String) (ps : List Part) : List IncludeCall :=
  (insertionsOf ps).map fun name => ⟨name, location⟩

theorem mem_callsOf {location : Option String} {ps : List Part} {call : IncludeCall} :
    call ∈ callsOf location ps ↔ call.base = location ∧ call.name ∈ insertionsOf ps := by
  cases call with
  | mk name base =>
    simp only [callsOf, List.mem_map, IncludeCall.mk.injEq]
    constructor
    · intro h
      obtain ⟨_, hname, rfl, rfl⟩ := h
      exact ⟨rfl, hname⟩
    · intro h
      exact ⟨name, h.2, rfl, h.1.symm⟩

theorem callsOf_cons (location : Option String) (p : Part) (ps : List Part) :
    callsOf location (p :: ps) = callsOf location [p] ++ callsOf location ps := by
  simp [callsOf, insertionsOf]

namespace Renderer

open RenderM

variable {r : Renderer}

/-! ### Questions -/

namespace Task

/-- The question that the first bit of a task puts to the includer. -/
def call? : Task → Option IncludeCall
  | ask _ _ call => some call
  | _ => none

/-- The questions that are written in what a task is to render. -/
def calls : Task → List IncludeCall
  | parts here ps => callsOf here.base ps
  | part here p => callsOf here.base [p]
  | visits here body _ _ => callsOf here.base body
  | ask _ _ call => [call]
  | write _ | close | leave _ => []

theorem keeps_answers {t : Task} (h : t.call? = none) :
    Keeps (fun s => (s.calls, s.compiled)) (t.run r) := by
  cases t with
  | parts here ps =>
    cases ps with
    | nil => exact .pure _
    | cons p ps => exact .pure _
  | part here p => exact keeps_part (fun _ _ => rfl) here p
  | write w => exact (Keeps.write (fun _ _ _ => rfl) _ _ w).bind fun _ => .pure _
  | visits here body i items =>
    cases items with
    | nil => exact .pure _
    | cons item items =>
      rw [run]
      refine (Keeps.tick (fun _ _ => rfl) _).bind fun _ => ?_
      split
      · exact .pure _
      · exact Keeps.bind (fun s => rfl) fun _ => .pure _
  | ask here includer call => cases h
  | close => exact .pure _
  | leave saved => exact fun s => rfl

theorem calls_run (t : Task) (s : RenderState) :
    ((t.run r).runFrom s).2.calls = t.call?.toList ++ s.calls := by
  cases hcall : t.call? with
  | none => exact congrArg Prod.fst (keeps_answers hcall s)
  | some call =>
    cases t with
    | ask here includer call' =>
      cases hcall
      have hafter : ((run r (.ask here includer call)).runFrom s).2.calls =
          ((RenderM.ask includer (r.config.settings.maxIncludeDepth - here.remaining) call).runFrom
            s).2.calls :=
        Keeps.after (fun found => Keeps.bind (.partsOf (fun _ _ => rfl) r call.name found)
          fun ps => .pure _) s
      rw [hafter, runFrom_ask]
      rfl
    | _ => cases hcall

theorem asks_includer {t : Task} {more : List Task} {s s' : RenderState}
    (hrun : (t.run r).runFrom s = (.ok more, s')) {here : Frame} {includer : Includer}
    {call : IncludeCall} (hask : ask here includer call ∈ more) : r.config.includer = some includer := by
  cases t.run_yields r s more s' hrun with
  | @allowed here n hremaining includer' name =>
    rw [run, hremaining] at hrun
    cases hincluder : r.config.includer with
    | none =>
      simp only [hincluder] at hrun
      cases hrun
    | some includer' =>
      simp only [hincluder] at hrun
      cases hrun
      simp only [List.mem_singleton, ask.injEq] at hask
      rw [hask.2.1]
  | _ => simp at hask

/-- An answered question leaves the parts of the answer to be rendered at its location, and its end. -/
theorem run_ask {here : Frame} {includer : Includer} {call : IncludeCall} {more : List Task}
    {s s' : RenderState} (h : ((ask here includer call).run r).runFrom s = (.ok more, s')) :
    ∃ found ps asked, asked.calls = call :: s.calls ∧ asked.compiled = s.compiled ∧
      includer s.calls call = .ok found ∧ (r.partsOf call.name found).runFrom asked = (.ok ps, s') ∧
        more = [parts { here with base := some found.location } ps, close] := by
  obtain ⟨found, asked, hask, hrest⟩ := ok_of_runFrom_bind h
  obtain ⟨ps, s₂, hparts, hleft⟩ := ok_of_runFrom_bind hrest
  cases hleft
  rw [runFrom_ask] at hask
  cases hanswer : includer s.calls call with
  | error failure =>
    rw [hanswer] at hask
    cases hask
  | ok found' =>
    rw [hanswer] at hask
    obtain ⟨hfound, hasked⟩ := Prod.mk.inj hask
    cases hfound
    exact ⟨found, ps, asked, hasked ▸ rfl, hasked ▸ rfl, rfl, hparts, rfl⟩

end Task

/-! ### The texts of a moment -/

theorem partsOf_outcome (r : Renderer) (name : String) (found : Included) {s s' : RenderState}
    (h : s'.compiled = s.compiled) :
    ((r.partsOf name found).runFrom s').1 = ((r.partsOf name found).runFrom s).1 := by
  rw [runFrom_partsOf, runFrom_partsOf, h]
  split
  · rfl
  · split
    · rfl
    · rfl

def answered? (r : Renderer) (s : RenderState) (includer : Includer) (call : IncludeCall) :
    Option OpenText :=
  match includer s.calls call with
  | .error _ => none
  | .ok found =>
    match ((r.partsOf call.name found).runFrom s).1 with
    | .error _ => none
    | .ok ps => some ⟨some found.location, ps⟩

theorem answered?_eq {s s' asked : RenderState} {includer : Includer} {call : IncludeCall}
    {found : Included} {ps : List Part} (hcompiled : asked.compiled = s.compiled)
    (hanswer : includer s.calls call = .ok found)
    (hparts : (r.partsOf call.name found).runFrom asked = (.ok ps, s')) :
    r.answered? s includer call = some ⟨some found.location, ps⟩ := by
  have hsame := partsOf_outcome r call.name found hcompiled
  rw [hparts] at hsame
  simp only [answered?, hanswer, ← hsame]

/-- The texts that are being rendered after the first bit of a task, given those before it. The
innermost comes first. -/
def Task.textsAfter (r : Renderer) (s : RenderState) (texts : List OpenText) : Task → List OpenText
  | ask _ includer call => (r.answered? s includer call).toList ++ texts
  | close => texts.tail
  | _ => texts

theorem Task.textsAfter_subset {t : Task} (h : t.call? = none) {s : RenderState}
    {texts : List OpenText} : t.textsAfter r s texts ⊆ texts := by
  cases t with
  | ask here includer call => cases h
  | close => exact (List.tail_suffix texts).subset
  | _ => exact List.Subset.refl texts

namespace Moment

/-- Moments of the rendering of a text before anything has failed, each with the texts that are being
rendered at it. -/
inductive Reading (r : Renderer) (own : OpenText) : Moment → List OpenText → Prop where
  | start : Reading r own (start r own.location own.parts) [own]
  | next {t : Task} {rest more : List Task} {s s' : RenderState} {acts : List Act}
      {texts : List OpenText} (h : Reading r own ⟨none, t :: rest, s, acts⟩ texts)
      (hrun : (t.run r).runFrom s = (.ok more, s')) :
      Reading r own ⟨none, more ++ rest, s', t.acts r true ++ acts⟩ (t.textsAfter r s texts)

/-- The includer is about to be asked. -/
def Asks (m : Moment) (call : IncludeCall) : Prop :=
  m.failure = none ∧ ∃ t rest, m.tasks = t :: rest ∧ t.call? = some call

end Moment

/-! ### Tasks in their texts -/

/-- Each task comes while the text that its questions are written in is the innermost one. -/
inductive Placed : List OpenText → List Task → Prop where
  | done (texts : List OpenText) : Placed texts []
  | task {text : OpenText} {outer : List OpenText} {t : Task} {rest : List Task}
      (hopen : t.isClose = false) (hcalls : t.calls ⊆ callsOf text.location text.parts)
      (h : Placed (text :: outer) rest) : Placed (text :: outer) (t :: rest)
  | close (text : OpenText) {outer : List OpenText} {rest : List Task} (h : Placed outer rest) :
      Placed (text :: outer) (.close :: rest)

namespace Placed

variable {text : OpenText} {outer texts : List OpenText} {t : Task} {rest more : List Task}

theorem of_leaves (hleaves : t.Leaves more) (hcall : t.call? = none) (hopen : t.isClose = false)
    (h : Placed (text :: outer) (t :: rest)) : Placed (text :: outer) (more ++ rest) := by
  cases h with
  | close => cases hopen
  | task _ hcalls hrest =>
    cases hleaves with
    | nothing => exact hrest
    | inTurn here p ps =>
      have hboth : callsOf here.base [p] ++ callsOf here.base ps ⊆
          callsOf text.location text.parts := callsOf_cons here.base p ps ▸ hcalls
      refine .task rfl (List.Subset.trans (List.subset_append_left _ _) hboth) ?_
      exact .task rfl (List.Subset.trans (List.subset_append_right _ _) hboth) hrest
    | text => exact .task rfl (List.nil_subset _) hrest
    | value => exact .task rfl (List.nil_subset _) hrest
    | allowed => exact .task rfl hcalls hrest
    | loop here subject body items saved =>
      have hbody : callsOf here.base body ⊆ callsOf here.base [.loop subject body] := by
        simp [callsOf, insertionsOf, Part.insertions]
      exact .task rfl (List.Subset.trans hbody hcalls) (.task rfl (List.nil_subset _) hrest)
    | yes here guard yes no =>
      have hyes : callsOf here.base yes ⊆ callsOf here.base [.choice guard yes no] := by
        simp [callsOf, insertionsOf, Part.insertions]
      exact .task rfl (List.Subset.trans hyes hcalls) hrest
    | no here guard yes no =>
      have hno : callsOf here.base no ⊆ callsOf here.base [.choice guard yes no] := by
        simp [callsOf, insertionsOf, Part.insertions]
      exact .task rfl (List.Subset.trans hno hcalls) hrest
    | skipped => exact .task rfl hcalls hrest
    | rendered => exact .task rfl hcalls (.task rfl hcalls hrest)
    | included => cases hcall

/-- The first bit of a task leaves tasks that are placed in the texts that are open then. -/
theorem step {s s' : RenderState} (h : Placed texts (t :: rest))
    (hrun : (t.run r).runFrom s = (.ok more, s')) :
    Placed (t.textsAfter r s texts) (more ++ rest) := by
  have hleaves := t.run_yields r s more s' hrun
  cases t with
  | ask here includer call =>
    obtain ⟨found, ps, asked, _, hcompiled, hanswer, hparts, rfl⟩ := Task.run_ask hrun
    rw [Task.textsAfter, answered?_eq hcompiled hanswer hparts]
    cases h with
    | task _ _ hrest =>
      exact .task rfl (List.Subset.refl _) (.close _ hrest)
  | close =>
    cases h with
    | task hopen => cases hopen
    | close text hrest =>
      cases hrun
      exact hrest
  | _ =>
    cases h with
    | task hopen hcalls hrest => exact of_leaves hleaves rfl rfl (.task hopen hcalls hrest)

end Placed

/-! ### Sources -/

/-- One of the questions asked so far was answered with a text at this location that compiles to these
parts. -/
inductive Supplied (r : Renderer) (asked : List IncludeCall) : OpenText → Prop where
  | intro {includer : Includer} {call : IncludeCall} {before : List IncludeCall} {found : Included}
      {ps : List Part} (hincluder : r.config.includer = some includer)
      (hasked : call :: before <:+ asked) (hanswer : includer before call = .ok found)
      (hparts : parseTemplate r.config.functions.signatures found.content = .ok ps) :
      Supplied r asked ⟨some found.location, ps⟩

theorem Supplied.later {asked more : List IncludeCall} {text : OpenText} (h : Supplied r asked text)
    (hlater : asked <:+ more) : Supplied r more text := by
  cases h with
  | intro hincluder hasked hanswer hparts => exact .intro hincluder (hasked.trans hlater) hanswer hparts

def KeepsSupplied (r : Renderer) (s : RenderState) : Prop :=
  ∀ location ps, s.compiled.lookup location = some ps → Supplied r s.calls ⟨some location, ps⟩

/-- The parts of an answer have been supplied by it, or by an earlier one at the same location. -/
theorem KeepsSupplied.partsOf {s s' : RenderState} (h : KeepsSupplied r s) {includer : Includer}
    {call : IncludeCall} {before : List IncludeCall} {found : Included} {ps : List Part}
    (hincluder : r.config.includer = some includer) (hcalls : s.calls = call :: before)
    (hanswer : includer before call = .ok found)
    (hparts : (r.partsOf call.name found).runFrom s = (.ok ps, s')) :
    s'.calls = s.calls ∧ Supplied r s'.calls ⟨some found.location, ps⟩ ∧ KeepsSupplied r s' := by
  rw [runFrom_partsOf] at hparts
  cases hlookup : s.compiled.lookup found.location with
  | some parts =>
    -- an earlier answer at this location has supplied them
    rw [hlookup] at hparts
    cases hparts
    exact ⟨rfl, h _ _ hlookup, h⟩
  | none =>
    rw [hlookup] at hparts
    cases hcompiled : parseTemplate r.config.functions.signatures found.content with
    | error e =>
      rw [hcompiled] at hparts
      cases hparts
    | ok parts =>
      rw [hcompiled] at hparts
      cases hparts
      have hsupplied : Supplied r s.calls ⟨some found.location, ps⟩ :=
        .intro hincluder (hcalls ▸ List.suffix_refl _) hanswer hcompiled
      split
      · refine ⟨rfl, hsupplied, fun location parts hkept => ?_⟩
        cases lookup_kept hkept with
        | inl hnew =>
          obtain ⟨rfl, rfl⟩ := hnew
          exact hsupplied
        | inr hold => exact h location parts hold
      · exact ⟨rfl, hsupplied, h⟩

/-! ### What every moment keeps -/

namespace Moment

/-- Each task is placed in the texts, each of which is the outermost one or has been supplied. -/
structure Resolved (r : Renderer) (own : OpenText) (m : Moment) (texts : List OpenText) : Prop where
  placed : Placed texts m.tasks
  includer : ∀ here includer call, .ask here includer call ∈ m.tasks →
    r.config.includer = some includer
  supplied : ∀ text ∈ texts, text = own ∨ Supplied r m.state.calls text
  kept : KeepsSupplied r m.state

variable {own : OpenText} {m : Moment} {texts : List OpenText}

theorem resolved_start (r : Renderer) (own : OpenText) :
    (start r own.location own.parts).Resolved r own [own] where
  placed := .task rfl (List.Subset.refl _) (.done _)
  includer here includer call h := by cases List.mem_singleton.mp h
  supplied text h := .inl (List.mem_singleton.mp h)
  kept location ps h := by cases h

/-- What an answer opens has been supplied, and so has what is kept of it. -/
theorem Resolved.sources_step {t : Task} {rest more : List Task} {s s' : RenderState}
    {acts : List Act} (h : Resolved r own ⟨none, t :: rest, s, acts⟩ texts)
    (hrun : (t.run r).runFrom s = (.ok more, s')) :
    (∀ text ∈ t.textsAfter r s texts, text = own ∨ Supplied r s'.calls text) ∧
      KeepsSupplied r s' := by
  cases hcall : t.call? with
  | none =>
    have hsame : (s'.calls, s'.compiled) = (s.calls, s.compiled) := by
      have hkeeps := Task.keeps_answers (r := r) hcall s
      rw [hrun] at hkeeps
      exact hkeeps
    obtain ⟨hcalls, hcompiled⟩ := Prod.mk.inj hsame
    rw [KeepsSupplied, hcalls, hcompiled]
    exact ⟨fun text htext => h.supplied text (t.textsAfter_subset hcall htext), h.kept⟩
  | some call =>
    cases t with
    | ask here includer call' =>
      cases hcall
      obtain ⟨found, ps, asked, hcalls, hcompiled, hanswer, hparts, _⟩ := Task.run_ask hrun
      have hlater : s.calls <:+ asked.calls := hcalls ▸ List.suffix_cons call s.calls
      have hkept : KeepsSupplied r asked := fun location ps hlookup =>
        (h.kept location ps (hcompiled ▸ hlookup)).later hlater
      have hincluder := h.includer here includer call List.mem_cons_self
      obtain ⟨hsame, hsupplied, hkept'⟩ := hkept.partsOf hincluder hcalls hanswer hparts
      refine ⟨fun text htext => ?_, hkept'⟩
      rw [Task.textsAfter, answered?_eq hcompiled hanswer hparts] at htext
      cases List.mem_cons.mp htext with
      | inl heq => exact .inr (heq ▸ hsupplied)
      | inr hmem =>
        refine (h.supplied text hmem).imp_right fun hold => ?_
        exact hold.later (hsame ▸ hlater)
    | _ => cases hcall

theorem Resolved.step {t : Task} {rest more : List Task} {s s' : RenderState} {acts acts' : List Act}
    (h : Resolved r own ⟨none, t :: rest, s, acts⟩ texts)
    (hrun : (t.run r).runFrom s = (.ok more, s')) :
    Resolved r own ⟨none, more ++ rest, s', acts'⟩ (t.textsAfter r s texts) where
  placed := h.placed.step hrun
  includer here includer call hask := by
    cases List.mem_append.mp hask with
    | inl hmore => exact Task.asks_includer hrun hmore
    | inr hrest => exact h.includer here includer call (List.mem_cons_of_mem t hrest)
  supplied := (h.sources_step hrun).1
  kept := (h.sources_step hrun).2

theorem Reading.resolved (h : Reading r own m texts) : m.Resolved r own texts := by
  induction h with
  | start => exact resolved_start r own
  | next _ hrun ih => exact ih.step hrun

/-- A question belongs to the innermost text. -/
theorem Resolved.of_asks {call : IncludeCall} (h : m.Resolved r own texts) (hasks : m.Asks call) :
    ∃ text outer, texts = text :: outer ∧ call.base = text.location ∧
      call.name ∈ insertionsOf text.parts := by
  obtain ⟨_, t, rest, htasks, hcall⟩ := hasks
  have hplaced := h.placed
  rw [htasks] at hplaced
  cases t with
  | ask here includer call' =>
    cases hcall
    cases hplaced with
    | @task text outer _ _ _ hcalls =>
      have hmem : call ∈ callsOf text.location text.parts := hcalls List.mem_cons_self
      exact ⟨text, outer, rfl, mem_callsOf.mp hmem⟩
  | _ => cases hcall

/-! ### All questions -/

theorem exists_reading (hleads : (start r own.location own.parts).Leads r m)
    (hrunning : m.failure = none) : ∃ texts, Reading r own m texts := by
  induction hleads with
  | refl => exact ⟨[own], .start⟩
  | tail _ hstep ih =>
    cases hstep with
    | done hrun =>
      obtain ⟨texts, hreading⟩ := ih rfl
      exact ⟨_, hreading.next hrun⟩
    | failed hrun => cases hrunning
    | unwound e t rest s acts => cases hrunning

theorem Step.calls {m' : Moment} (h : Step r m m') : m'.state.calls = m.state.calls ∨
    ∃ call, m.Asks call ∧ m'.state.calls = call :: m.state.calls := by
  -- it does not matter whether the question is answered
  have hran : ∀ (t : Task) (rest : List Task) (s : RenderState) (acts : List Act),
      ((t.run r).runFrom s).2.calls = s.calls ∨ ∃ call, Asks ⟨none, t :: rest, s, acts⟩ call ∧
        ((t.run r).runFrom s).2.calls = call :: s.calls := by
    intro t rest s acts
    have hcalls := t.calls_run (r := r) s
    cases hcall : t.call? with
    | none =>
      rw [hcall] at hcalls
      exact .inl hcalls
    | some call =>
      rw [hcall] at hcalls
      exact .inr ⟨call, ⟨rfl, t, rest, rfl, hcall⟩, hcalls⟩
  cases h with
  | @done t rest more s s' acts hrun =>
    have hstep := hran t rest s acts
    rw [hrun] at hstep
    exact hstep
  | @failed t rest s s' acts e hrun =>
    have hstep := hran t rest s acts
    rw [hrun] at hstep
    exact hstep
  | unwound e t rest s acts => exact .inl (congrArg Ledger.calls (t.ledger_unwind s))

/-- Every question was put at a moment before anything had failed. -/
theorem exists_asks (hleads : (start r own.location own.parts).Leads r m)
    {newer older : List IncludeCall} {call : IncludeCall}
    (hcalls : m.state.calls = newer ++ call :: older) :
    ∃ m' texts, Reading r own m' texts ∧ m'.Asks call ∧ m'.state.calls = older := by
  induction hleads generalizing newer with
  | refl => exact absurd hcalls.symm (by simp [start, RenderState.initial])
  | tail hbefore hstep ih =>
    cases hstep.calls with
    | inl hsame => exact ih (hsame ▸ hcalls)
    | inr hasked =>
      obtain ⟨call', hasks, hnew⟩ := hasked
      rw [hcalls] at hnew
      cases newer with
      | nil =>
        obtain ⟨rfl, holder⟩ := List.cons.inj hnew
        obtain ⟨texts, hreading⟩ := exists_reading hbefore hasks.1
        exact ⟨_, texts, hreading, hasks, holder.symm⟩
      | cons newest newer => exact ih (List.cons.inj hnew).2.symm

end Moment
end Renderer

/-! ### Templates -/

open Renderer

namespace Template

/-- Every question that a rendering puts to the includer passes the name of a directive and the location
of the text that the directive is written in. That text is the innermost of those that were being rendered
when the question was put: the template itself, or a text whose location an answer gave and whose parts
are those of that answer or of an earlier one at the same location. -/
theorem includes_resolved_where_written (t : Template) (root : Root) (sink : Sink)
    {newer older : List IncludeCall} {call : IncludeCall}
    (hcalls : (t.render root sink).state.calls = newer ++ call :: older) :
    ∃ env, t.config.open? root = .ok env ∧
      let r : Renderer := ⟨env, t.config, sink, true⟩
      let own : OpenText := ⟨t.location, t.parts⟩
      ∃ m text outer, Moment.Reading r own m (text :: outer) ∧ m.Asks call ∧ m.state.calls = older ∧
        call.base = text.location ∧ call.name ∈ insertionsOf text.parts ∧
          ∀ text' ∈ text :: outer, text' = own ∨ Supplied r older text' := by
  cases henv : t.config.open? root with
  | error e =>
    rw [render, henv] at hcalls
    exact absurd hcalls.symm (by simp [RenderState.initial])
  | ok env =>
    refine ⟨env, rfl, ?_⟩
    intro r own
    rw [render_eq henv] at hcalls
    obtain ⟨last, hleads, _, hlast⟩ := renderTop_leads (r := r) t.location t.parts
    change ((renderTop r t.location t.parts).runFrom .initial).2.calls = _ at hcalls
    rw [hlast] at hcalls
    have hstart : (Moment.start r own.location own.parts).Leads r last := hleads
    obtain ⟨m, texts, hreading, hasks, holder⟩ := Moment.exists_asks hstart hcalls
    have hresolved := hreading.resolved
    obtain ⟨text, outer, rfl, hbase, hname⟩ := hresolved.of_asks hasks
    exact ⟨m, text, outer, hreading, hasks, holder, hbase, hname, holder ▸ hresolved.supplied⟩

/-- The text of the loop comes from what is kept when it asks the second time, and the directive after
the loop is resolved where the loop is. -/
theorem includes_resolved_where_written_loop :
    let includer : Includer := .ofFunction fun call =>
      if call.name = "a" then .ok ⟨"x/a", "{{> c }}"⟩ else .ok ⟨call.name, "1"⟩
    let t : Template := ⟨some "top", [.loop [.path .root [.wildcard]] [.insertion "a"], .insertion "b"],
      Configuration.default.withIncluder includer⟩
    let d : Json.Document := ⟨.array [.bool true, .bool true], by
      simp [Json.Ordered, Json.OrderedItems]⟩
    let older : List IncludeCall := [⟨"a", some "top"⟩, ⟨"c", some "x/a"⟩, ⟨"a", some "top"⟩]
    (t.render (.json d) .unlimited).state.calls = [⟨"b", some "top"⟩, ⟨"c", some "x/a"⟩] ++ older ∧
      ∃ r own m text outer, Moment.Reading r own m (text :: outer) ∧ m.state.calls = older ∧
        text.location = some "x/a" ∧ "c" ∈ insertionsOf text.parts := by
  intro includer t d older
  have hcalls : (t.render (.json d) .unlimited).state.calls =
      [⟨"b", some "top"⟩] ++ ⟨"c", some "x/a"⟩ :: older := by
    decide +kernel
  obtain ⟨env, _, m, text, outer, hreading, _, holder, hbase, hname, _⟩ :=
    t.includes_resolved_where_written (.json d) .unlimited hcalls
  exact ⟨hcalls, _, _, m, text, outer, hreading, holder, hbase.symm, hname⟩

end Template
end PathQuery
