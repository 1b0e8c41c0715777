import PathQuery.Proofs.Query.Compiled
import PathQuery.Proofs.Template.Caching

/-!
# Renderings after each other

Parts that stand behind others are rendered with what the others have left: links, counts and kept parts.
The links are true and the kept parts are right, so they are never noticed, and smaller counts leave more
room. So the parts behind can be rendered without those before them, and write the same.
-/

namespace PathQuery

open RenderM

/-! ### Computations that follow others -/

/-- From states that are related, the second computation succeeds with the same result if the first one
does, and the states that they end in are related. -/
def Follows {α : Type} (R : RenderState → RenderState → Prop) (m m' : RenderM α)
    (Q : α → RenderState → RenderState → Prop) : Prop :=
  ∀ (s s₀ s' : RenderState) (x : α), R s s₀ → m.runFrom s = (.ok x, s') →
    ∃ s₀', m'.runFrom s₀ = (.ok x, s₀') ∧ Q x s' s₀'

namespace Follows

variable {α β : Type} {R : RenderState → RenderState → Prop}
  {Q : α → RenderState → RenderState → Prop} {P : β → RenderState → RenderState → Prop}

theorem pure {x : α} (h : ∀ s s₀, R s s₀ → Q x s s₀) : Follows R (Pure.pure x) (Pure.pure x) Q := by
  intro s s₀ s' y hR hrun
  cases hrun
  exact ⟨s₀, rfl, h s s₀ hR⟩

theorem throw (e : RenderError) (m' : RenderM α) : Follows R (throw e) m' Q := by
  intro s s₀ s' x _ hrun
  cases hrun

theorem bind {m m' : RenderM α} {k k' : α → RenderM β} (hm : Follows R m m' Q)
    (hk : ∀ x, Follows (Q x) (k x) (k' x) P) : Follows R (m >>= k) (m' >>= k') P := by
  intro s s₀ s' y hR hrun
  obtain ⟨x, s₁, hfirst, hrest⟩ := ok_of_runFrom_bind hrun
  obtain ⟨s₁', hfirst', hQ⟩ := hm s s₀ s₁ x hR hfirst
  obtain ⟨s₀', hrest', hP⟩ := hk x s₁ s₁' s' y hQ hrest
  exact ⟨s₀', by rw [runFrom_bind_ok hfirst', hrest'], hP⟩

theorem mono {m m' : RenderM α} {Q' : α → RenderState → RenderState → Prop} (h : Follows R m m' Q)
    (hQ : ∀ x s s₀, Q x s s₀ → Q' x s s₀) : Follows R m m' Q' := by
  intro s s₀ s' x hR hrun
  obtain ⟨s₀', hrun', hafter⟩ := h s s₀ s' x hR hrun
  exact ⟨s₀', hrun', hQ x s' s₀' hafter⟩

theorem ofEach {ι : Type} {R : ι → RenderState → RenderState → Prop} {m m' : RenderM α}
    (h : ∀ i, Follows (R i) m m' fun _ => R i) :
    Follows (fun s s₀ => ∃ i, R i s s₀) m m' fun _ s s₀ => ∃ i, R i s s₀ := by
  intro s s₀ s' x hR hrun
  obtain ⟨i, hR⟩ := hR
  obtain ⟨s₀', hrun', hafter⟩ := h i s s₀ s' x hR hrun
  exact ⟨s₀', hrun', i, hafter⟩

end Follows

/-! ### States side by side -/

namespace RenderState

/-- The links of a state are true and reach some known nodes, its kept parts are right, and a list and an
index are in force. -/
structure Sound (d : Json.Document) (signatures : Signatures) (content : String → String)
    (known items : List Item) (index : Option Nat) (s : RenderState) : Prop where
  truthful : s.context.Truthful d
  knows : s.context.KnowsAll known
  faithful : s.Faithful signatures content
  items : s.context.items = items
  index : s.context.index = index

/-- A state counts what another one counts on top of what was counted before. -/
structure GoesOn (s before s₀ : RenderState) : Prop where
  writes : s.writes = s₀.writes ++ before.writes
  written : s.written = s₀.written + before.written
  iterations : s.iterations = s₀.iterations + before.iterations
  calls : s.calls = s₀.calls ++ before.calls

theorem GoesOn.apart {s before s₀ : RenderState} (h : s.GoesOn before s₀) {c c₀ : Context}
    {kept kept₀ : List (String × List Part)} :
    GoesOn { s with context := c, compiled := kept } before
      { s₀ with context := c₀, compiled := kept₀ } :=
  ⟨h.writes, h.written, h.iterations, h.calls⟩

variable {d : Json.Document} {signatures : Signatures} {content : String → String}
  {known items : List Item} {index : Option Nat} {s s' : RenderState}

theorem Sound.mono (h : s.Sound d signatures content known items index) {fewer : List Item}
    (hsubset : fewer ⊆ known) : s.Sound d signatures content fewer items index where
  truthful := h.truthful
  knows a ha := h.knows a (hsubset ha)
  faithful := h.faithful
  items := h.items
  index := h.index

theorem Sound.inForce (h : s.Sound d signatures content known items index) (items' : List Item)
    (index' : Option Nat) :
    Sound d signatures content known items' index'
      { s with context := { s.context with items := items', index := index' } } where
  truthful := h.truthful.of_links rfl
  knows a ha := (Context.knows_congr rfl).mpr (h.knows a ha)
  faithful := h.faithful
  items := rfl
  index := rfl

theorem Sound.of_same (h : s.Sound d signatures content known items index)
    (hcontext : s'.context = s.context) (hcompiled : s'.compiled = s.compiled) :
    s'.Sound d signatures content known items index where
  truthful := hcontext ▸ h.truthful
  knows := hcontext ▸ h.knows
  faithful := h.faithful.of_compiled hcompiled
  items := hcontext ▸ h.items
  index := hcontext ▸ h.index

theorem Sound.keeping (h : s.Sound d signatures content known items index)
    {compiled : List (String × List Part)}
    (hkept : RenderState.Faithful signatures content { s with compiled := compiled }) :
    Sound d signatures content known items index { s with compiled := compiled } :=
  ⟨h.truthful, h.knows, hkept, h.items, h.index⟩

/-- Two sound states, of which the first goes on from an earlier one where the second goes on from
nothing. -/
structure Beside (good : RenderState → Prop) (before s s₀ : RenderState) : Prop where
  first : good s
  second : good s₀
  counts : s.GoesOn before s₀

end RenderState

namespace Renderer

variable {r : Renderer} {d : Json.Document} {content : String → String} {before : RenderState}

/-! ### Computations without what came before -/

def Alongside (r : Renderer) (d : Json.Document) (content : String → String) (before : RenderState)
    (known items : List Item) (index : Option Nat) : RenderState → RenderState → Prop :=
  RenderState.Beside
    (RenderState.Sound d r.config.functions.signatures content known items index) before

variable {known items : List Item} {index : Option Nat}

theorem Alongside.mono {s s₀ : RenderState} (h : r.Alongside d content before known items index s s₀)
    {fewer : List Item} (hsubset : fewer ⊆ known) :
    r.Alongside d content before fewer items index s s₀ :=
  ⟨h.first.mono hsubset, h.second.mono hsubset, h.counts⟩

theorem select_follows (henv : r.env.backend = Json.backend d)
    (hsteady : r.config.functions.IsSteady r.env d) (terms : List Term) {current : List Item}
    (hcurrent : current ⊆ known) :
    Follows (r.Alongside d content before known items index) (r.select terms current)
      (r.select terms current)
      fun found => r.Alongside d content before (known ++ found) items index := by
  -- what is selected is one function of items and index, whatever links the context has
  obtain ⟨out, hout⟩ := selectTerms_steady henv hsteady terms current
  have hrun : ∀ s : RenderState,
      s.Sound d r.config.functions.signatures content known items index →
        ∃ c, (r.select terms current).runFrom s =
            ((out items index).mapError .eval, { s with context := c }) ∧
          ∀ found, out items index = .ok found →
            RenderState.Sound d r.config.functions.signatures content (known ++ found) items index
              { s with context := c } := by
    intro s hs
    obtain ⟨c, hrun, hextends, hknown⟩ := hout s.context hs.truthful fun a ha =>
      hs.knows a (hcurrent ha)
    rw [hs.items, hs.index] at hrun hknown
    refine ⟨c, by rw [select, runFrom_evaluate, hrun], fun found hok => ?_⟩
    exact ⟨hextends.truthful, Context.knowsAll_append.mpr ⟨hextends.knowsAll hs.knows, hknown found hok⟩,
      hs.faithful, hextends.items.trans hs.items, hextends.index.trans hs.index⟩
  intro s s₀ s' found h hselected
  obtain ⟨c, hrun₁, hsound⟩ := hrun s h.first
  obtain ⟨c₀, hrun₂, hsound₀⟩ := hrun s₀ h.second
  rw [hrun₁] at hselected
  cases hok : out items index with
  | error e =>
    rw [hok] at hselected
    cases hselected
  | ok found' =>
    rw [hok] at hselected hrun₂
    cases hselected
    exact ⟨_, hrun₂, hsound found hok, hsound₀ found hok, h.counts.apart⟩

theorem write_follows (bound : Nat) (w : Write) :
    Follows (r.Alongside d content before known items index) (RenderM.write .unlimited bound w)
      (RenderM.write .unlimited bound w)
      fun _ => r.Alongside d content before known items index := by
  intro s s₀ s' x h hrun
  rw [runFrom_write] at hrun ⊢
  split at hrun
  · cases hrun
  · next hroom =>
    cases hrun
    have hwritten := h.counts.written
    have hroom₀ : ¬bound < s₀.written + w.text.utf8ByteSize := by omega
    rw [if_neg hroom₀]
    refine ⟨_, rfl, h.first.of_same rfl rfl, h.second.of_same rfl rfl, ?_, ?_, h.counts.iterations,
      h.counts.calls⟩
    · show w :: s.writes = w :: s₀.writes ++ before.writes
      rw [h.counts.writes]
      rfl
    · show s.written + w.text.utf8ByteSize = s₀.written + w.text.utf8ByteSize + before.written
      omega

theorem tick_follows (bound : Nat) :
    Follows (r.Alongside d content before known items index) (tick bound) (tick bound)
      fun _ => r.Alongside d content before known items index := by
  intro s s₀ s' x h hrun
  rw [runFrom_tick] at hrun ⊢
  split at hrun
  · next hroom =>
    cases hrun
    have hiterations := h.counts.iterations
    have hroom₀ : s₀.iterations < bound := by omega
    rw [if_pos hroom₀]
    refine ⟨_, rfl, h.first.of_same rfl rfl, h.second.of_same rfl rfl, h.counts.writes,
      h.counts.written, ?_, h.counts.calls⟩
    show s.iterations + 1 = s₀.iterations + 1 + before.iterations
    omega
  · cases hrun

theorem setIndex_follows (i : Nat) :
    Follows (fun s s₀ => ∃ index, r.Alongside d content before known items index s s₀) (setIndex i)
      (setIndex i) fun _ s s₀ => ∃ index, r.Alongside d content before known items index s s₀ := by
  intro s s₀ s' x hstates hrun
  obtain ⟨index, hfirst, hsecond, hcounts⟩ := hstates
  cases hrun
  refine ⟨_, rfl, some i, ?_, ?_, hcounts.apart⟩
  · rw [← hfirst.items]
    exact hfirst.inForce s.context.items (some i)
  · rw [← hsecond.items]
    exact hsecond.inForce s₀.context.items (some i)

/-- A loop finds the index of the loop around it as it was. -/
theorem within_follows {inside : List Item} {m m' : RenderM Unit}
    (h : Follows (r.Alongside d content before known inside none) m m' fun _ s s₀ =>
      ∃ index, r.Alongside d content before known inside index s s₀) :
    Follows (r.Alongside d content before known items index) (within inside m) (within inside m')
      fun _ => r.Alongside d content before known items index := by
  intro s s₀ s' x hstates hrun
  obtain ⟨hfirst, hsecond, hcounts⟩ := hstates
  have hinside : r.Alongside d content before known inside none
      { s with context := (s.context.enter inside).2 }
      { s₀ with context := (s₀.context.enter inside).2 } :=
    ⟨hfirst.inForce inside none, hsecond.inForce inside none, hcounts.apart⟩
  rw [runFrom_within] at hrun ⊢
  cases hbody : m.runFrom { s with context := (s.context.enter inside).2 } with
  | mk outcome s₁ =>
    rw [hbody] at hrun
    obtain ⟨rfl, rfl⟩ := Prod.mk.inj hrun
    obtain ⟨s₀₁, hbody₀, index', hfirst', hsecond', hcounts'⟩ := h _ _ _ _ hinside hbody
    rw [hbody₀]
    refine ⟨_, rfl, ?_, ?_, hcounts'.apart⟩
    · rw [← hfirst.items, ← hfirst.index]
      exact hfirst'.inForce s.context.items s.context.index
    · rw [← hsecond.items, ← hsecond.index]
      exact hsecond'.inForce s₀.context.items s₀.context.index

theorem partsOf_follows (name : String) {found : Included}
    (hfound : found.content = content found.location) :
    Follows (r.Alongside d content before known items index) (r.partsOf name found)
      (r.partsOf name found) fun _ => r.Alongside d content before known items index := by
  intro s s₀ s' ps h hrun
  obtain ⟨compiled, hrun₁, hkept, _⟩ := partsOf_faithful h.first.faithful name hfound
  obtain ⟨compiled₀, hrun₂, hkept₀, _⟩ := partsOf_faithful h.second.faithful name hfound
  rw [hrun₁] at hrun
  cases hparts : parseTemplate r.config.functions.signatures found.content with
  | error e =>
    rw [hparts] at hrun
    cases hrun
  | ok ps' =>
    rw [hparts] at hrun hrun₂
    cases hrun
    exact ⟨_, hrun₂, h.first.keeping hkept, h.second.keeping hkept₀, h.counts.apart⟩

theorem ask_follows (answer : IncludeCall → Except IncludeFailure Included) (depth : Nat)
    (call : IncludeCall) :
    Follows (r.Alongside d content before known items index)
      (ask (.ofFunction answer) depth call) (ask (.ofFunction answer) depth call) fun found s s₀ =>
        answer call = .ok found ∧ r.Alongside d content before known items index s s₀ := by
  intro s s₀ s' found h hrun
  rw [runFrom_ask] at hrun ⊢
  cases hanswer : answer call with
  | error failure =>
    rw [Includer.ofFunction, hanswer] at hrun
    cases hrun
  | ok found' =>
    rw [Includer.ofFunction, hanswer] at hrun ⊢
    cases hrun
    refine ⟨_, rfl, rfl, h.first.of_same rfl rfl, h.second.of_same rfl rfl, h.counts.writes,
      h.counts.written, h.counts.iterations, ?_⟩
    show call :: s.calls = call :: s₀.calls ++ before.calls
    rw [h.counts.calls]
    rfl

theorem found_follows {answer : IncludeCall → Except IncludeFailure Included}
    (hserves : (Includer.ofFunction answer).Serves content) (depth : Nat) (call : IncludeCall)
    {k k' : Included → List Part → RenderM Unit}
    (hk : ∀ found parts, Follows (r.Alongside d content before known items index) (k found parts)
      (k' found parts) fun _ => r.Alongside d content before known items index) :
    Follows (r.Alongside d content before known items index)
      (ask (.ofFunction answer) depth call >>= fun found => r.partsOf call.name found >>= k found)
      (ask (.ofFunction answer) depth call >>= fun found => r.partsOf call.name found >>= k' found)
      fun _ => r.Alongside d content before known items index := by
  refine (ask_follows answer depth call).bind fun found => ?_
  intro s s₀ s' x h hrun
  have hfound := hserves s.calls call found h.1
  exact ((partsOf_follows call.name hfound).bind (hk found)) s s₀ s' x h.2 hrun

/-! ### Parts without those before them -/

/-- A rendering goes in lockstep with what it is without what came before. -/
def composing (henv : r.env.backend = Json.backend d)
    (hsteady : r.config.functions.IsSteady r.env d) (hsink : r.sink = .unlimited)
    (content : String → String) (before : RenderState) : Lockstep r r where
  rel needs m m' := ∀ known, needs ⊆ known → ∀ items index,
    Follows (r.Alongside d content before known items index) m m'
      fun _ => r.Alongside d content before known items index
  inner needs m m' := ∀ known, needs ⊆ known → ∀ items,
    Follows (fun s s₀ => ∃ index, r.Alongside d content before known items index s s₀) m m'
      fun _ s s₀ => ∃ index, r.Alongside d content before known items index s s₀
  tree := .refl r
  mono hsubset h known hknown := h known (List.Subset.trans hsubset hknown)
  nothing _ _ _ _ _ := .pure fun _ _ h => h
  andThen hm hk known hknown items index :=
    (hm known hknown items index).bind fun _ => hk known hknown items index
  select terms hk known hknown items index := by
    refine (select_follows henv hsteady terms hknown).bind fun found => ?_
    have hmore := List.append_subset.mpr
      ⟨List.Subset.trans hknown (List.subset_append_left known found),
        List.subset_append_right known found⟩
    exact (hk found (known ++ found) hmore items index).mono
      fun _ _ _ h => h.mono (List.subset_append_left known found)
  write _ _ _ _ _ _ _ := hsink ▸ write_follows _ _
  inner_of_rel h known hknown items := .ofEach fun index => h known hknown items index
  inner_andThen hm hk known hknown items :=
    (hm known hknown items).bind fun _ => hk known hknown items
  inner_tick _ _ _ _ := .ofEach fun _ => tick_follows _
  inner_index _ i _ _ _ := setIndex_follows i
  within _ h known hknown _ _ := within_follows fun s s₀ s' x hs hrun =>
    h known hknown _ s s₀ s' x ⟨none, hs⟩ hrun

/-! ### Renderings in two halves -/

theorem renderParts_append (r : Renderer) (insert : IncludeCall → List Item → RenderM Unit)
    (base : Option String) (current : List Item) (ps qs : List Part) :
    r.renderParts insert base current (ps ++ qs) = (do
      r.renderParts insert base current ps
      r.renderParts insert base current qs) := by
  induction ps with
  | nil =>
    rw [renderParts, List.nil_append]
    rfl
  | cons p ps ih => rw [List.cons_append, renderParts, renderParts, ih, bind_assoc]

theorem sound_initial (d : Json.Document) (signatures : Signatures) (content : String → String) :
    RenderState.initial.Sound d signatures content [.node []] [.node []] none where
  truthful := Context.truthful_initial
  knows a ha := .inl (Item.node.inj (List.mem_singleton.mp ha))
  faithful location parts h := by cases h
  items := rfl
  index := rfl

section

variable (henv : r.env.backend = Json.backend d) (hsteady : r.config.functions.IsSteady r.env d)
  (hsink : r.sink = .unlimited)
  (hserves : ∀ includer, r.config.includer = some includer →
    ∃ answer, includer = .ofFunction answer ∧ includer.Serves content)

include henv hsteady hsink hserves

theorem renderTop_follows (base : Option String) (ps : List Part) :
    Follows (r.Alongside d content before [.node []] items index) (r.renderTop base ps)
      (r.renderTop base ps) fun _ => r.Alongside d content before [.node []] items index := by
  refine (composing henv hsteady hsink content before).renderTop rfl rfl
    (fun _ e _ _ _ _ => .throw e _) ?_ base ps [.node []] (List.Subset.refl _) items index
  intro needs includer hincluder depth call k k' hk known hknown items index
  obtain ⟨answer, rfl, hcontent⟩ := hserves includer hincluder
  exact found_follows hcontent depth call fun found parts => hk found parts known hknown items index

/-- If two halves can be rendered after each other, each can be rendered alone, and together they count
what they count alone. -/
theorem renderTop_append (base : Option String) (ps qs : List Part) {s : RenderState}
    (hrun : (r.renderTop base (ps ++ qs)).runFrom .initial = (.ok (), s)) :
    ∃ s₁ s₂, (r.renderTop base ps).runFrom .initial = (.ok (), s₁) ∧
      (r.renderTop base qs).runFrom .initial = (.ok (), s₂) ∧ s.GoesOn s₁ s₂ := by
  have hinitial := sound_initial d r.config.functions.signatures content
  rw [renderTop, renderParts_append] at hrun
  obtain ⟨_, s₁, hfirst, hsecond⟩ := ok_of_runFrom_bind hrun
  -- behind nothing, the first half leads to a sound state
  have hnothing : r.Alongside d content .initial [.node []] [.node []] none .initial .initial :=
    ⟨hinitial, hinitial, rfl, rfl, rfl, rfl⟩
  obtain ⟨_, _, hs₁⟩ :=
    renderTop_follows henv hsteady hsink hserves base ps _ _ _ _ hnothing hfirst
  have hbehind : r.Alongside d content s₁ [.node []] [.node []] none s₁ .initial :=
    ⟨hs₁.first, hinitial, rfl, (Nat.zero_add _).symm, (Nat.zero_add _).symm, rfl⟩
  obtain ⟨s₂, halone, hs⟩ :=
    renderTop_follows henv hsteady hsink hserves base qs _ _ _ _ hbehind hsecond
  exact ⟨s₁, s₂, hfirst, halone, hs.counts⟩

end

end Renderer

/-! ### Templates -/

theorem RenderState.GoesOn.output {s before s₀ : RenderState} (h : s.GoesOn before s₀) :
    s.output = before.output ++ s₀.output := by
  rw [RenderState.output, h.writes, List.reverse_append, List.map_append, String.join_append]
  rfl

namespace Template

/-- If two lists of parts are rendered after each other without failure, each is rendered without
failure on its own, and the output is that of the first followed by that of the second. The root is a
JSON document, and the answers of the includer are functions of the questions, with the same text for
the same location. The functions are steady, as the built-in ones are: what comes after a function that
changed the index in force for good could tell. -/
theorem render_append {config : Configuration} {d : Json.Document} {content : String → String}
    (hopen : config.open? (.json d) = .ok (config.env (Json.backend d)))
    (hsteady : config.functions.IsSteady (config.env (Json.backend d)) d)
    (hserves : ∀ includer, config.includer = some includer →
      ∃ answer, includer = .ofFunction answer ∧ includer.Serves content)
    (location : Option String) (first second : List Part) :
    let alone (ps : List Part) : Rendering := render ⟨location, ps, config⟩ (.json d) .unlimited
    (alone (first ++ second)).outcome = .ok () →
      (alone first).outcome = .ok () ∧ (alone second).outcome = .ok () ∧
        (alone (first ++ second)).output = (alone first).output ++ (alone second).output ∧
          (alone (first ++ second)).state.calls =
            (alone second).state.calls ++ (alone first).state.calls := by
  intro alone hok
  let r : Renderer := ⟨config.env (Json.backend d), config, .unlimited, true⟩
  have halone : ∀ ps, alone ps = ⟨((r.renderTop location ps).runFrom .initial).1,
      ((r.renderTop location ps).runFrom .initial).2⟩ := fun ps => by
    simp only [alone, render, hopen]
    rfl
  rw [halone] at hok
  obtain ⟨s₁, s₂, hfirst, hsecond, hcounts⟩ :=
    Renderer.renderTop_append (r := r) rfl hsteady rfl hserves location first second
      (Prod.ext hok rfl)
  rw [halone first, halone second, halone (first ++ second), hfirst, hsecond]
  exact ⟨rfl, rfl, hcounts.output, hcounts.calls⟩

/-- The second half finds the included text kept by the loop before it, and no position. -/
theorem render_append_loop :
    let includer : Includer := .ofFunction fun call => .ok ⟨call.name, "{{1+1}}"⟩
    let config := Configuration.default.withIncluder includer
    let d : Json.Document := ⟨.array [.bool true, .bool true], by
      simp [Json.Ordered, Json.OrderedItems]⟩
    let first : List Part := [.loop [.path .root [.wildcard]] [.insertion "a", .text ","]]
    let second : List Part := [.value [.call "position" []], .insertion "a"]
    let alone (ps : List Part) : Rendering := render ⟨none, ps, config⟩ (.json d) .unlimited
    (alone (first ++ second)).outcome = .ok () ∧ (alone (first ++ second)).output = "2,2,2" ∧
      (alone second).outcome = .ok () ∧
        (alone (first ++ second)).output = (alone first).output ++ (alone second).output := by
  intro includer config d first second alone
  have hserves : ∀ other, config.includer = some other →
      ∃ answer, other = .ofFunction answer ∧ other.Serves (fun _ => "{{1+1}}") := by
    intro other hother
    cases hother
    refine ⟨_, rfl, fun calls call found h => ?_⟩
    cases h
    rfl
  have hok : (alone (first ++ second)).outcome.toOption = some () := by decide +kernel
  have houtcome : (alone (first ++ second)).outcome = .ok () := by
    cases hcases : (alone (first ++ second)).outcome with
    | ok u => rfl
    | error e =>
      rw [hcases] at hok
      cases hok
  have hopen : config.open? (.json d) = .ok (config.env (Json.backend d)) := rfl
  obtain ⟨_, hsecond, houtput, _⟩ :=
    render_append hopen (Registry.builtins_isSteady rfl) hserves none first second houtcome
  exact ⟨houtcome, by decide +kernel, hsecond, houtput⟩

end Template
end PathQuery
