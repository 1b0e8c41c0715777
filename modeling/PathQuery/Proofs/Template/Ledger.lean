import PathQuery.Proofs.Template.Moments
import PathQuery.Tree.Weight

/-!
# The ledger of a rendering

What a state counts changes by acts alone. A text is written whole and within the bound, a visit is
counted within the bound, and nothing else that a rendering does changes a count.
-/

namespace PathQuery

def bytesOf (ws : List Write) : Nat := totalOf (fun w => w.text.utf8ByteSize) ws

namespace Renderer

open RenderM

/-! ### Acts -/

namespace Act

def write? : Act → Option Write
  | wrote w => some w
  | _ => none

def call? : Act → Option IncludeCall
  | asked _ call => some call
  | _ => none

def isVisit : Act → Bool
  | visited _ => true
  | _ => false

end Act

/-! ### Ledgers -/

/-- The part of a state that acts change. -/
structure Ledger where
  writes : List Write
  written : Nat
  iterations : Nat
  deepest : Nat
  calls : List IncludeCall

namespace Ledger

def ofState (s : RenderState) : Ledger := ⟨s.writes, s.written, s.iterations, s.deepest, s.calls⟩

def after (l : Ledger) : Act → Ledger
  | .wrote w => { l with writes := w :: l.writes, written := l.written + w.text.utf8ByteSize }
  | .visited _ => { l with iterations := l.iterations + 1 }
  | .asked depth call => { l with deepest := max l.deepest depth, calls := call :: l.calls }

/-- The ledger after some acts, the latest first. -/
def afterAll (l : Ledger) (acts : List Act) : Ledger := acts.foldr (fun a l => l.after a) l

theorem afterAll_append (l : Ledger) (acts acts' : List Act) :
    l.afterAll (acts' ++ acts) = (l.afterAll acts).afterAll acts' :=
  List.foldr_append

/-- No count is above its bound. -/
structure Within (settings : Settings) (l : Ledger) : Prop where
  written : l.written ≤ settings.maxOutputSize
  iterations : l.iterations ≤ settings.maxIterations
  deepest : l.deepest ≤ settings.maxIncludeDepth

def empty : Ledger := ofState .initial

theorem within_empty (settings : Settings) : empty.Within settings :=
  ⟨Nat.zero_le _, Nat.zero_le _, Nat.zero_le _⟩

/-- What the ledger of some acts says can be read off them. -/
theorem empty_afterAll (acts : List Act) :
    (empty.afterAll acts).writes = acts.filterMap Act.write? ∧
      (empty.afterAll acts).written = bytesOf (acts.filterMap Act.write?) ∧
        (empty.afterAll acts).iterations = acts.countP Act.isVisit ∧
          (empty.afterAll acts).calls = acts.filterMap Act.call? := by
  induction acts with
  | nil => exact ⟨rfl, rfl, rfl, rfl⟩
  | cons a acts ih =>
    obtain ⟨hwrites, hwritten, hiterations, hcalls⟩ := ih
    change ((empty.afterAll acts).after a).writes = _ ∧ ((empty.afterAll acts).after a).written = _ ∧
      ((empty.afterAll acts).after a).iterations = _ ∧ ((empty.afterAll acts).after a).calls = _
    cases a with
    | wrote w =>
      refine ⟨congrArg (w :: ·) hwrites, ?_, hiterations, hcalls⟩
      change (empty.afterAll acts).written + w.text.utf8ByteSize =
        bytesOf (w :: acts.filterMap Act.write?)
      rw [bytesOf, totalOf_cons, hwritten, Nat.add_comm]
      rfl
    | visited item =>
      refine ⟨hwrites, hwritten, ?_, hcalls⟩
      rw [List.countP_cons_of_pos rfl, ← hiterations]
      rfl
    | asked depth call => exact ⟨hwrites, hwritten, hiterations, congrArg (call :: ·) hcalls⟩

end Ledger

/-! ### Computations with acts -/

theorem write_refused {sink : Sink} {bound : Nat} {w : Write} {s : RenderState}
    (h : bound < s.written + w.text.utf8ByteSize) :
    (write sink bound w).runFrom s = (.error (.limit .outputSize bound), s) := by
  rw [runFrom_write, if_pos h]

theorem write_cases (sink : Sink) (bound : Nat) (w : Write) (s : RenderState) :
    (s.written + w.text.utf8ByteSize ≤ bound ∧ (write sink bound w).runFrom s =
        (.ok (), { s with
          writes := w :: s.writes, written := s.written + w.text.utf8ByteSize })) ∨
      (bound < s.written + w.text.utf8ByteSize ∧
        (write sink bound w).runFrom s = (.error (.limit .outputSize bound), s)) ∨
      (write sink bound w).runFrom s = (.error .sinkFailed, s) := by
  rw [runFrom_write]
  split
  · rename_i hsize
    exact .inr (.inl ⟨hsize, rfl⟩)
  · rename_i hsize
    split
    · exact .inl ⟨Nat.le_of_not_lt hsize, rfl⟩
    · exact .inr (.inr rfl)

theorem tick_refused {bound : Nat} {s : RenderState} (h : bound ≤ s.iterations) :
    (tick bound).runFrom s = (.error (.limit .iterations bound), s) := by
  rw [runFrom_tick, if_neg (Nat.not_lt.mpr h)]

theorem tick_cases (bound : Nat) (s : RenderState) :
    (s.iterations < bound ∧
        (tick bound).runFrom s = (.ok (), { s with iterations := s.iterations + 1 })) ∨
      bound ≤ s.iterations ∧ (tick bound).runFrom s = (.error (.limit .iterations bound), s) := by
  rw [runFrom_tick]
  split
  · rename_i hless
    exact .inl ⟨hless, rfl⟩
  · rename_i hspent
    exact .inr ⟨Nat.le_of_not_lt hspent, rfl⟩

theorem ledger_ask (includer : Includer) (depth : Nat) (call : IncludeCall) (s : RenderState) :
    Ledger.ofState ((ask includer depth call).runFrom s).2 =
      (Ledger.ofState s).after (.asked depth call) := by
  rw [runFrom_ask]
  rfl

/-! ### The ledger of a task -/

/-- The ledger changes by the acts of a task. -/
theorem Task.ledger_run (r : Renderer) (t : Task) (s : RenderState) :
    Ledger.ofState ((t.run r).runFrom s).2 =
      (Ledger.ofState s).afterAll (t.acts r ((t.run r).runFrom s).1.isOk) := by
  cases t with
  | parts here ps =>
    cases ps with
    | nil => rfl
    | cons p ps => rfl
  | part here p => exact keeps_part (fun _ _ => rfl) here p s
  | write w =>
    rw [run]
    rcases write_cases r.sink r.config.settings.maxOutputSize w s with
      ⟨_, hrun⟩ | ⟨_, hrun⟩ | hrun
    · rw [runFrom_bind_ok hrun]
      rfl
    · rw [runFrom_bind_error hrun]
      rfl
    · rw [runFrom_bind_error hrun]
      rfl
  | visits here body i items =>
    cases items with
    | nil => rfl
    | cons item items =>
      rw [run]
      rcases tick_cases r.config.settings.maxIterations s with ⟨_, hrun⟩ | ⟨_, hrun⟩
      · rw [runFrom_bind_ok hrun]
        split
        · rfl
        · rfl
      · rw [runFrom_bind_error hrun]
        rfl
  | ask here includer call =>
    rw [run]
    refine (Keeps.after (fun found => ?_) s).trans (ledger_ask includer _ call s)
    exact (Keeps.partsOf (fun _ _ => rfl) r call.name found).bind fun ps => .pure _
  | close => rfl
  | leave saved => rfl

/-- No act takes a count above its bound. -/
theorem Task.within_run (r : Renderer) (t : Task) {s : RenderState}
    (h : (Ledger.ofState s).Within r.config.settings) :
    (Ledger.ofState ((t.run r).runFrom s).2).Within r.config.settings := by
  cases t with
  | parts here ps =>
    cases ps with
    | nil => exact h
    | cons p ps => exact h
  | part here p =>
    have hkeeps : Keeps Ledger.ofState ((part here p).run r) := keeps_part (fun _ _ => rfl) here p
    rw [hkeeps s]
    exact h
  | write w =>
    rw [run]
    rcases write_cases r.sink r.config.settings.maxOutputSize w s with
      ⟨hfits, hrun⟩ | ⟨_, hrun⟩ | hrun
    · rw [runFrom_bind_ok hrun]
      exact ⟨hfits, h.iterations, h.deepest⟩
    · rw [runFrom_bind_error hrun]
      exact h
    · rw [runFrom_bind_error hrun]
      exact h
  | visits here body i items =>
    cases items with
    | nil => exact h
    | cons item items =>
      rw [run]
      rcases tick_cases r.config.settings.maxIterations s with ⟨hless, hrun⟩ | ⟨_, hrun⟩
      · have hcounted : (Ledger.ofState { s with iterations := s.iterations + 1 }).Within
            r.config.settings := ⟨h.written, hless, h.deepest⟩
        rw [runFrom_bind_ok hrun]
        split
        · exact hcounted
        · exact hcounted
      · rw [runFrom_bind_error hrun]
        exact h
  | ask here includer call =>
    have hasked := ledger_run r (.ask here includer call) s
    rw [hasked]
    exact ⟨h.written, h.iterations, Nat.max_le.mpr ⟨h.deepest, Nat.sub_le _ _⟩⟩
  | close => exact h
  | leave saved => exact h

theorem Task.ledger_unwind (t : Task) (s : RenderState) :
    Ledger.ofState (t.unwind s) = Ledger.ofState s := by
  cases t with
  | leave saved => rfl
  | _ => rfl

end Renderer
end PathQuery
