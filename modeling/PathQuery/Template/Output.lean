import PathQuery.Eval.Context
import PathQuery.Template.Includer
import PathQuery.Template.Part

/-!
# The state of a rendering

A rendering writes texts to a sink one by one, visits the items of loops and includes other texts. It
counts all three, and each count has a bound that is checked first: what would go over its bound is
not done. `RenderM` is the monad of computations that change this state and may fail; a failure keeps
the state as it was left.
-/

namespace PathQuery

/-! ### Errors -/

inductive Limit where
  | iterations
  | includeDepth
  | outputSize
  deriving DecidableEq, Repr

def Limit.text : Limit → String
  | iterations => "iterations"
  | includeDepth => "include depth"
  | outputSize => "output size"

inductive RenderError where
  | limit (kind : Limit) (bound : Nat)
  | noIncluder (name : String)
  | notIncluded (name : String) (failure : IncludeFailure)
  /-- An included text cannot be compiled. -/
  | included (name : String) (error : TemplateSyntaxError)
  | eval (error : EvalError)
  /-- The sink has refused a text. -/
  | sinkFailed

namespace RenderError

def message : RenderError → String
  | limit kind bound => "template limit exceeded: " ++ kind.text ++ " above " ++ toString bound
  | noIncluder name => "no includer configured to resolve `" ++ name ++ "`"
  | notIncluded name failure => "cannot include `" ++ name ++ "`: " ++ failure.message
  | included name error => "in included template `" ++ name ++ "`: " ++ error.message
  | eval error => error.message
  | sinkFailed => "failed to write template output"

def isLimit : RenderError → Bool
  | limit _ _ => true
  | _ => false

end RenderError

/-! ### Sinks -/

/-- A text that is written, and whether it is the value of a tag. -/
structure Write where
  text : String
  substituted : Bool
  deriving DecidableEq, Repr

/-- Whether a sink accepts a text, given those it has accepted, the latest first. -/
abbrev Sink := List Write → Write → Bool

namespace Sink

def unlimited : Sink := fun _ _ => true

/-- Accepts `n` texts. -/
def ofCapacity (n : Nat) : Sink := fun accepted _ => decide (accepted.length < n)

end Sink

/-! ### States -/

/-- The state of a rendering. Lists are kept latest first. -/
structure RenderState where
  context : Context
  /-- The texts that the sink has accepted. -/
  writes : List Write
  /-- Their bytes. -/
  written : Nat
  /-- How many items loops have visited. -/
  iterations : Nat
  /-- The greatest number of includes that were inside each other. -/
  deepest : Nat
  calls : List IncludeCall
  /-- The parts of included texts by location. -/
  compiled : List (String × List Part)

namespace RenderState

def initial : RenderState := ⟨.initial, [], 0, 0, 0, [], []⟩

def output (s : RenderState) : String := String.join (s.writes.reverse.map Write.text)

end RenderState

/-! ### Computations -/

abbrev RenderM (α : Type) := ExceptT RenderError (StateM RenderState) α

namespace RenderM

def runFrom {α : Type} (m : RenderM α) (s : RenderState) : Except RenderError α × RenderState :=
  m.run.run s

def evaluate {α : Type} (m : EvalM α) : RenderM α :=
  ExceptT.mk fun s =>
    let (outcome, context) := m.runFrom s.context
    (outcome.mapError .eval, { s with context := context })

/-- Runs `body` over a list of items put in force, and goes back to the old one whatever happens. -/
def within {α : Type} (items : List Item) (body : RenderM α) : RenderM α :=
  ExceptT.mk fun s =>
    let (saved, inner) := s.context.enter items
    let (outcome, after) := body.runFrom { s with context := inner }
    (outcome, { after with context := after.context.leave saved })

/-- Writes a text, if its bytes fit under the bound and the sink accepts it. -/
def write (sink : Sink) (bound : Nat) (w : Write) : RenderM Unit := do
  let s ← get
  let size := s.written + w.text.utf8ByteSize
  -- the bound is checked first, so the sink never sees a text that goes over it
  if bound < size then throw (.limit .outputSize bound)
  else if sink s.writes w then set { s with writes := w :: s.writes, written := size }
  else throw .sinkFailed

/-- Counts a visit of an item, if there may be one more. -/
def tick (bound : Nat) : RenderM Unit := do
  let s ← get
  if s.iterations < bound then set { s with iterations := s.iterations + 1 }
  else throw (.limit .iterations bound)

def setIndex (i : Nat) : RenderM Unit :=
  modify fun s => { s with context := { s.context with index := some i } }

/-- Puts a question to an includer, for an include inside `depth - 1` others. -/
def ask (includer : Includer) (depth : Nat) (call : IncludeCall) : RenderM Included := do
  let s ← get
  -- the call counts even if the includer fails
  set { s with calls := call :: s.calls, deepest := max s.deepest depth }
  match includer s.calls call with
  | .ok found => return found
  | .error failure => throw (.notIncluded call.name failure)

end RenderM
end PathQuery
