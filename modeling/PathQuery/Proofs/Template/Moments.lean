import PathQuery.Template.Basic
import PathQuery.Proofs.Template.Running
import Mathlib.Logic.Relation

/-!
# The moments of a rendering

A rendering is cut into moments. Each has the tasks that are still to be done, the state so far, and
the acts that outsiders have seen: texts that the sink accepted, items that loops visited, questions
put to the includer. A moment leads to the next by its first task, which does at most one such act and
may leave tasks in its place. After a failure the tasks left only go back to the contexts they saved.

From every moment on, the rest of the rendering has the same outcome and leaves the same state.
-/

namespace PathQuery

namespace Renderer

open RenderM

/-! ### Tasks -/

/-- Where a part stands. -/
structure Frame where
  /-- The location of its text. -/
  base : Option String
  current : List Item
  /-- How many includes may still be inside each other. -/
  remaining : Nat

/-- Something that a rendering has still to do. -/
inductive Task where
  | parts (here : Frame) (ps : List Part)
  | part (here : Frame) (p : Part)
  | write (w : Write)
  /-- The visits of a loop from position `i` on. -/
  | visits (here : Frame) (body : List Part) (i : Nat) (items : List Item)
  /-- An include that is allowed. -/
  | ask (here : Frame) (includer : Includer) (call : IncludeCall)
  /-- The end of an included text. -/
  | close
  /-- The end of a loop. -/
  | leave (saved : SavedContext)

/-- What outsiders see of a rendering. -/
inductive Act where
  | wrote (w : Write)
  | visited (item : Item)
  /-- A question for an include inside `depth - 1` others. -/
  | asked (depth : Nat) (call : IncludeCall)

namespace Task

variable (r : Renderer)

/-- Does the first bit of a task. The result is what is left of it. -/
def run : Task → RenderM (List Task)
  | parts _ [] => return []
  | parts here (p :: ps) => return [part here p, parts here ps]
  | part _ (.text s) => return [write ⟨s, false⟩]
  | part here (.value terms) => do
    let items ← r.select terms here.current
    match items.head?.bind r.env.backend.textOf? with
    | some s => return [write ⟨r.substitution s, true⟩]
    | none => return []
  | part here (.insertion name) =>
    match here.remaining with
    | 0 => throw (.limit .includeDepth r.config.settings.maxIncludeDepth)
    | n + 1 =>
      match r.config.includer with
      | none => throw (.noIncluder name)
      | some includer => return [ask { here with remaining := n } includer ⟨name, here.base⟩]
  | part here (.loop subject body) => do
    let items ← r.select subject here.current
    let s ← get
    let (saved, inner) := s.context.enter items
    set { s with context := inner }
    return [visits here body 0 items, leave saved]
  | part here (.choice guard yes no) => do
    let items ← r.select guard here.current
    if firstTruth r.env.backend items then return [parts here yes]
    else return [parts here no]
  | write w => do
    RenderM.write r.sink r.config.settings.maxOutputSize w
    return []
  | visits _ _ _ [] => return []
  | visits here body i (item :: items) => do
    tick r.config.settings.maxIterations
    if r.skips item then return [visits here body (i + 1) items]
    else do
      setIndex i
      return [parts { here with current := currentIn here.current item } body,
        visits here body (i + 1) items]
  | ask here includer call => do
    let found ← RenderM.ask includer (r.config.settings.maxIncludeDepth - here.remaining) call
    let ps ← r.partsOf call.name found
    return [parts { here with base := some found.location } ps, close]
  | close => return []
  | leave saved => do
    modify fun s => { s with context := s.context.leave saved }
    return []

/-- What outsiders see of the first bit of a task, given whether it succeeds. The includer has been
asked also if it has no answer. -/
def acts : Task → Bool → List Act
  | write w, true => [.wrote w]
  | visits _ _ _ (item :: _), true => [.visited item]
  | ask here _ call, _ => [.asked (r.config.settings.maxIncludeDepth - here.remaining) call]
  | _, _ => []

/-- Drops a task after a failure. -/
def unwind : Task → RenderState → RenderState
  | leave saved, s => { s with context := s.context.leave saved }
  | _, s => s

/-- All of a task at once. -/
def perform : Task → RenderM Unit
  | parts here ps => r.renderParts (r.insertion here.remaining) here.base here.current ps
  | part here p => r.renderPart (r.insertion here.remaining) here.base here.current p
  | write w => RenderM.write r.sink r.config.settings.maxOutputSize w
  | visits here body i items => r.each here.current
    (fun current => r.renderParts (r.insertion here.remaining) here.base current body) i items
  | ask here includer call => do
    let found ← RenderM.ask includer (r.config.settings.maxIncludeDepth - here.remaining) call
    let ps ← r.partsOf call.name found
    r.renderParts (r.insertion here.remaining) (some found.location) here.current ps
  | close => return
  | leave saved => modify fun s => { s with context := s.context.leave saved }

/-! ### What tasks leave -/

/-- What the first bit of a task can leave. -/
inductive Leaves : Task → List Task → Prop where
  | nothing (t : Task) : Leaves t []
  | inTurn (here : Frame) (p : Part) (ps : List Part) :
      Leaves (parts here (p :: ps)) [part here p, parts here ps]
  | text (here : Frame) (s : String) : Leaves (part here (.text s)) [write ⟨s, false⟩]
  | value (here : Frame) (terms : List Term) (s : String) :
      Leaves (part here (.value terms)) [write ⟨s, true⟩]
  | allowed (here : Frame) {n : Nat} (h : here.remaining = n + 1) (includer : Includer)
      (name : String) :
      Leaves (part here (.insertion name))
        [ask { here with remaining := n } includer ⟨name, here.base⟩]
  | loop (here : Frame) (subject : List Term) (body : List Part) (items : List Item)
      (saved : SavedContext) :
      Leaves (part here (.loop subject body)) [visits here body 0 items, leave saved]
  | yes (here : Frame) (guard : List Term) (yes no : List Part) :
      Leaves (part here (.choice guard yes no)) [parts here yes]
  | no (here : Frame) (guard : List Term) (yes no : List Part) :
      Leaves (part here (.choice guard yes no)) [parts here no]
  | skipped (here : Frame) (body : List Part) (i : Nat) (item : Item) (items : List Item) :
      Leaves (visits here body i (item :: items)) [visits here body (i + 1) items]
  | rendered (here : Frame) (body : List Part) (i : Nat) (item : Item) (items : List Item) :
      Leaves (visits here body i (item :: items))
        [parts { here with current := currentIn here.current item } body,
          visits here body (i + 1) items]
  | included (here : Frame) (includer : Includer) (call : IncludeCall) (location : String)
      (ps : List Part) :
      Leaves (ask here includer call) [parts { here with base := some location } ps, close]

theorem run_yields (t : Task) : Yields (t.run r) t.Leaves := by
  cases t with
  | parts here ps =>
    cases ps with
    | nil => exact .pure (.nothing _)
    | cons p ps => exact .pure (.inTurn here p ps)
  | part here p =>
    cases p with
    | text s => exact .pure (.text here s)
    | value terms =>
      refine .bind fun items => ?_
      split
      · exact .pure (.value here terms _)
      · exact .pure (.nothing _)
    | insertion name =>
      rw [run]
      split
      · exact .throw _ _
      · rename_i n hn
        split
        · exact .throw _ _
        · exact .pure (.allowed here hn _ name)
    | loop subject body =>
      exact .bind fun items => .bind fun s => .bind fun _ =>
        .pure (.loop here subject body items _)
    | choice guard yes no =>
      refine .bind fun items => ?_
      split
      · exact .pure (.yes here guard yes no)
      · exact .pure (.no here guard yes no)
  | write w => exact .bind fun _ => .pure (.nothing _)
  | visits here body i items =>
    cases items with
    | nil => exact .pure (.nothing _)
    | cons item items =>
      refine .bind fun _ => ?_
      split
      · exact .pure (.skipped here body i item items)
      · exact .bind fun _ => .pure (.rendered here body i item items)
  | ask here includer call =>
    exact .bind fun found => .bind fun ps => .pure (.included here includer call found.location ps)
  | close => exact .pure (.nothing _)
  | leave saved => exact .bind fun _ => .pure (.nothing _)

variable {r}

/-- Parts change the context and nothing else; what they ask for is left to other tasks. -/
theorem keeps_part {γ : Type} {f : RenderState → γ}
    (hcontext : ∀ s c, f { s with context := c } = f s) (here : Frame) (p : Part) :
    Keeps f ((part here p).run r) := by
  cases p with
  | text s => exact .pure _
  | value terms =>
    refine (Keeps.evaluate hcontext _).bind fun items => ?_
    split
    · exact .pure _
    · exact .pure _
  | insertion name =>
    rw [run]
    split
    · exact .throw _
    · split
      · exact .throw _
      · exact .pure _
  | loop subject body =>
    intro s
    have hselect : Keeps f (r.select subject here.current) := .evaluate hcontext _
    refine (hselect.bind fun items => ?_) s
    exact fun s => hcontext s _
  | choice guard yes no =>
    refine (Keeps.evaluate hcontext _).bind fun items => ?_
    split
    · exact .pure _
    · exact .pure _

end Task

/-! ### Moments -/

structure Moment where
  /-- Why nothing more is done, if something has failed. -/
  failure : Option RenderError
  tasks : List Task
  state : RenderState
  /-- What outsiders have seen, the latest first. -/
  acts : List Act

def outcomeOf : Option RenderError → Except RenderError Unit
  | none => .ok ()
  | some e => .error e

def failureOf : Except RenderError Unit → Option RenderError
  | .ok _ => none
  | .error e => some e

theorem failureOf_outcomeOf (failure : Option RenderError) :
    failureOf (outcomeOf failure) = failure := by
  cases failure with
  | none => rfl
  | some e => rfl

variable (r : Renderer)

namespace Moment

/-- One moment comes right after another. -/
inductive Step : Moment → Moment → Prop where
  | done {t : Task} {rest more : List Task} {s s' : RenderState} {acts : List Act}
      (h : (t.run r).runFrom s = (.ok more, s')) :
      Step ⟨none, t :: rest, s, acts⟩ ⟨none, more ++ rest, s', t.acts r true ++ acts⟩
  | failed {t : Task} {rest : List Task} {s s' : RenderState} {acts : List Act} {e : RenderError}
      (h : (t.run r).runFrom s = (.error e, s')) :
      Step ⟨none, t :: rest, s, acts⟩ ⟨some e, rest, s', t.acts r false ++ acts⟩
  | unwound (e : RenderError) (t : Task) (rest : List Task) (s : RenderState) (acts : List Act) :
      Step ⟨some e, t :: rest, s, acts⟩ ⟨some e, rest, t.unwind s, acts⟩

/-- One moment comes some time after another, or is the same. -/
def Leads : Moment → Moment → Prop := Relation.ReflTransGen (Step r)

/-- The moment at which the parts of a text that nothing includes are about to be rendered. -/
def start (base : Option String) (ps : List Part) : Moment :=
  ⟨none, [.parts ⟨base, [.node []], r.config.settings.maxIncludeDepth⟩ ps], .initial, []⟩

end Moment

/-! ### What is left to do -/

/-- Performs tasks in order; after a failure they are dropped. -/
def resume : Option RenderError → List Task → RenderState → Except RenderError Unit × RenderState
  | failure, [], s => (outcomeOf failure, s)
  | some e, t :: rest, s => resume (some e) rest (t.unwind s)
  | none, t :: rest, s =>
    resume (failureOf ((t.perform r).runFrom s).1) rest ((t.perform r).runFrom s).2

variable {r}

theorem resume_append (failure : Option RenderError) (ts rest : List Task) (s : RenderState) :
    resume r failure (ts ++ rest) s =
      resume r (failureOf (resume r failure ts s).1) rest (resume r failure ts s).2 := by
  induction ts generalizing failure s with
  | nil => rw [List.nil_append, resume, failureOf_outcomeOf]
  | cons t ts ih =>
    cases failure with
    | some e =>
      rw [List.cons_append, resume, resume]
      exact ih (some e) (t.unwind s)
    | none =>
      rw [List.cons_append, resume, resume]
      exact ih _ _

def performAll (r : Renderer) (ts : List Task) : RenderM Unit := ExceptT.mk fun s => resume r none ts s

theorem runFrom_performAll (ts : List Task) (s : RenderState) :
    (performAll r ts).runFrom s = resume r none ts s := rfl

@[simp] theorem performAll_nil : performAll r [] = pure () := rfl

@[simp] theorem performAll_single (t : Task) : performAll r [t] = t.perform r := by
  refine RenderM.ext fun s => ?_
  rw [runFrom_performAll, resume, resume]
  cases (t.perform r).runFrom s with
  | mk outcome s' =>
    cases outcome with
    | ok u => rfl
    | error e => rfl

/-- A task without anything to go back to comes after another one. -/
theorem performAll_pair (t t' : Task) (h : ∀ s, t'.unwind s = s) :
    performAll r [t, t'] = (do t.perform r; t'.perform r) := by
  refine RenderM.ext fun s => ?_
  rw [runFrom_performAll, resume, runFrom_bind]
  cases (t.perform r).runFrom s with
  | mk outcome s' =>
    cases outcome with
    | ok u => exact congrArg (fun m : RenderM Unit => m.runFrom s') (performAll_single t')
    | error e =>
      change resume r (some e) [t'] s' = _
      rw [resume, resume, h]
      rfl

/-- The end of a loop goes back to what was in force before it, whatever happens. -/
theorem performAll_leave (t : Task) (items : List Item) :
    (do
      let s ← get
      set { s with context := (s.context.enter items).2 }
      performAll r [t, .leave (s.context.enter items).1]) = within items (t.perform r) := by
  refine RenderM.ext fun s => ?_
  rw [runFrom_bind_ok (runFrom_get s), runFrom_bind_ok (runFrom_set s _), runFrom_performAll, resume,
    runFrom_within]
  cases (t.perform r).runFrom { s with context := (s.context.enter items).2 } with
  | mk outcome s' =>
    cases outcome with
    | ok u => rfl
    | error e => rfl

/-! ### A task bit by bit -/

theorem Task.perform_eq_run_part (here : Frame) (p : Part) :
    (part here p).perform r = (part here p).run r >>= performAll r := by
  cases p with
  | text s =>
    rw [perform, renderPart, run, pure_bind, performAll_single]
    rfl
  | value terms =>
    rw [perform, renderPart, run, bind_assoc]
    congr
    funext items
    rw [writeFirst]
    cases items.head?.bind r.env.backend.textOf? with
    | none => rfl
    | some s =>
      simp only [pure_bind, performAll_single]
      rfl
  | insertion name =>
    rw [perform, renderPart, run]
    cases hremaining : here.remaining with
    | zero => rfl
    | succ n =>
      rw [insertion]
      cases r.config.includer with
      | none => rfl
      | some includer =>
        simp only [pure_bind, performAll_single]
        rfl
  | loop subject body =>
    -- the loop is left also after a failure, so what is left of it is not one `>>=` more
    rw [perform, renderPart, run, bind_assoc]
    congr
    funext items
    exact (performAll_leave (.visits here body 0 items) items).symm
  | choice guard yes no =>
    rw [perform, renderPart, run, bind_assoc]
    congr
    funext items
    split
    · rw [pure_bind, performAll_single]
      rfl
    · rw [pure_bind, performAll_single]
      rfl

theorem Task.perform_eq_run_visits (here : Frame) (body : List Part) (i : Nat)
    (items : List Item) :
    (visits here body i items).perform r = (visits here body i items).run r >>= performAll r := by
  cases items with
  | nil => rfl
  | cons item items =>
    rw [perform, each, run, bind_assoc]
    congr
    funext _
    split
    · rw [pure_bind, performAll_single]
      rfl
    · rw [bind_assoc]
      congr
      funext _
      rw [pure_bind, performAll_pair _ _ fun _ => rfl]
      rfl

/-- All of a task is its first bit and then all that is left of it. -/
theorem Task.perform_eq_run (t : Task) : t.perform r = t.run r >>= performAll r := by
  cases t with
  | parts here ps =>
    cases ps with
    | nil =>
      rw [perform, renderParts]
      rfl
    | cons p ps =>
      rw [perform, renderParts, run, pure_bind, performAll_pair _ _ fun _ => rfl]
      rfl
  | part here p => exact perform_eq_run_part here p
  | write w =>
    rw [perform, run, bind_assoc]
    simp only [pure_bind, performAll_nil]
    exact bind_pure_unit.symm
  | visits here body i items => exact perform_eq_run_visits here body i items
  | ask here includer call =>
    rw [perform, run, bind_assoc]
    congr
    funext found
    rw [bind_assoc]
    congr
    funext ps
    rw [pure_bind, performAll_pair _ _ fun _ => rfl]
    exact (bind_pure_unit).symm
  | close => rfl
  | leave saved => rfl

/-! ### Moments in turn -/

namespace Moment

/-- What the rendering comes to, when all that is left is done. -/
def final (r : Renderer) (m : Moment) : Except RenderError Unit × RenderState :=
  resume r m.failure m.tasks m.state

theorem Step.final_eq {m m' : Moment} (h : Step r m m') : m'.final r = m.final r := by
  cases h with
  | @done t rest more s s' acts hrun =>
    -- what is left of the task takes its place before the others
    rw [final, final, resume, Task.perform_eq_run, runFrom_bind_ok hrun, runFrom_performAll]
    exact resume_append none more rest s'
  | @failed t rest s s' acts e hrun =>
    rw [final, final, resume, Task.perform_eq_run, runFrom_bind_error hrun]
    rfl
  | unwound e t rest s acts =>
    rw [final, final, resume]

theorem Leads.final_eq {m m' : Moment} (h : Leads r m m') : m'.final r = m.final r := by
  induction h with
  | refl => rfl
  | tail _ hstep ih => rw [hstep.final_eq, ih]

theorem final_start (base : Option String) (ps : List Part) :
    (start r base ps).final r = (r.renderTop base ps).runFrom .initial := by
  change (performAll r [.parts ⟨base, [.node []], r.config.settings.maxIncludeDepth⟩ ps]).runFrom
    .initial = _
  rw [performAll_single]
  rfl

/-- After a failure nothing is done that outsiders see. -/
theorem Leads.of_failure {m m' : Moment} (h : Leads r m m') {e : RenderError}
    (hfailure : m.failure = some e) : m'.failure = some e ∧ m'.acts = m.acts := by
  induction h with
  | refl => exact ⟨hfailure, rfl⟩
  | tail _ hstep ih =>
    cases hstep with
    | unwound e' t rest s acts => exact ih
    | done hrun => exact absurd ih.1 (by simp)
    | failed hrun => exact absurd ih.1 (by simp)

end Moment

end Renderer
end PathQuery
