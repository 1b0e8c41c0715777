import PathQuery.Eval.Trace
import PathQuery.Settings
import Std.Data.TreeMap

/-!
# The state of an evaluation

While an expression is evaluated, a `Context` keeps the list of items a filter or loop runs over and
the index of the one at hand, the scopes in which nodes are told new from seen, and the links to
their parents of all nodes handed out so far. `EvalM` is the monad of computations that change a
context and may fail; a failure keeps the context as it was left.
-/

namespace PathQuery

/-! ### Errors -/

inductive EvalError where
  | noBackend
  | arithmetic (failure : ArithmeticFailure)
  /-- A call of a function fails, for a reason of its own. -/
  | function (name reason : String)
  deriving DecidableEq

def EvalError.message : EvalError → String
  | noBackend => "no registered adapter accepts the supplied root"
  | arithmetic f => "arithmetic error: " ++ f.message
  | function name reason => "function `" ++ name ++ "`: " ++ reason

def EvalError.unregistered (name : String) : EvalError := .function name "not registered"

/-! ### Contexts -/

/-- From where a node was handed out. -/
structure Link where
  parent : Address
  place : Place
  deriving DecidableEq

/-- The state of an evaluation. -/
structure Context where
  /-- The items that the innermost filter or loop runs over. -/
  items : List Item
  /-- The position among them of the one at hand, counted from zero. -/
  index : Option Nat
  /-- The nodes seen in each open scope, the innermost first. -/
  scopes : List AddressSet
  links : Std.TreeMap Address Link compare
  /-- What has happened, newest first. -/
  trace : List TraceEvent

structure SavedContext where
  items : List Item
  index : Option Nat

namespace Context

/-- The state at the start: the root is the only item, and nothing is known. -/
def initial : Context := ⟨[.node []], none, [], ∅, []⟩

/-- Puts a new list in force, without an index, and hands out the old one. -/
def enter (c : Context) (items : List Item) : SavedContext × Context :=
  (⟨c.items, c.index⟩, { c with items := items, index := none })

def leave (c : Context) (saved : SavedContext) : Context :=
  { c with items := saved.items, index := saved.index }

def pushScope (c : Context) : Context := { c with scopes := ∅ :: c.scopes }

def popScope (c : Context) : Context := { c with scopes := c.scopes.tail }

/-- Whether an item is met for the first time in the innermost scope. Computed values, and all items
outside of every scope, always are. -/
def isNew (c : Context) (item : Item) : Bool × Context :=
  match item, c.scopes with
  | .node a, seen :: outer =>
    if seen.contains a then (false, c) else (true, { c with scopes := seen.insert a :: outer })
  | _, _ => (true, c)

/-- Records that `parent` has handed out nodes. What is known of a node is kept. -/
def record (c : Context) (parent : Address) (found : List (Address × Place)) : Context :=
  { c with links := found.foldl (fun ls f => ls.insertIfNew f.1 ⟨parent, f.2⟩) c.links }

def parent? (c : Context) (a : Address) : Option Address := (c.links[a]?).map (·.parent)

def key? (c : Context) (a : Address) : Option String := (c.links[a]?).bind (·.place.key)

def index? (c : Context) (a : Address) : Option Nat := (c.links[a]?).bind (·.place.index)

end Context

/-! ### Computations -/

/-- What an evaluation consults and does not change. -/
structure Env where
  backend : Backend
  settings : Settings
  traced : Bool

abbrev EvalM (α : Type) := ExceptT EvalError (StateM Context) α

namespace EvalM

def runFrom {α : Type} (m : EvalM α) (c : Context) : Except EvalError α × Context := m.run.run c

def emit (env : Env) (e : TraceEvent) : EvalM Unit :=
  if env.traced then modify fun c => { c with trace := e :: c.trace } else pure ()

/-- The children of a node that a key selects; they are linked to it. -/
def children (env : Env) (a : Address) (key : Key) : EvalM (List Address) := do
  let found := env.backend.get a key
  modify fun c => c.record a found
  return found.map Prod.fst

/-- Runs `body` for each element in turn and joins what they give. -/
def collect {α β : Type} (xs : List α) (body : α → EvalM (List β)) : EvalM (List β) :=
  match xs with
  | [] => return []
  | x :: xs => do
    let here ← body x
    let rest ← collect xs body
    return here ++ rest

def joined {α : Type} (ms : List (EvalM (List α))) : EvalM (List α) := collect ms id

/-- Runs `body` over a list of items put in force, and goes back to the old one whatever happens. -/
def within {α : Type} (items : List Item) (body : EvalM α) : EvalM α :=
  ExceptT.mk fun c =>
    let (saved, inner) := c.enter items
    let (outcome, after) := body.run.run inner
    (outcome, after.leave saved)

def isNew (item : Item) : EvalM Bool := modifyGet fun c => c.isNew item

def keepNew : List Item → EvalM (List Item)
  | [] => return []
  | item :: items => do
    let new ← isNew item
    let rest ← keepNew items
    return if new then item :: rest else rest

/-- The items without repeated nodes, told apart in a scope of their own. -/
def distinct (items : List Item) : EvalM (List Item) := do
  modify Context.pushScope
  let kept ← keepNew items
  modify Context.popScope
  return kept

/-- The result of an operation: strictly a failure is an error, otherwise nothing. -/
def settle (env : Env) : Except ArithmeticFailure Scalar → EvalM (List Item)
  | .ok v => return [.scalar v]
  | .error f =>
    if env.settings.strict then throw (.arithmetic f)
    else do
      emit env (.noResult f)
      return []

/-- Evaluates a term with a trace of its start and end; a failed one has no end. -/
def traced (env : Env) (t : Term) (count : Nat) (body : EvalM (List Item)) : EvalM (List Item) :=
  ExceptT.mk do
    discard <| (emit env (.start t count)).run
    discard <| (emit env .enter).run
    let outcome ← body.run
    discard <| (emit env .exit).run
    match outcome with
    | .ok items =>
      discard <| (emit env (.finish t items.length)).run
      return .ok items
    | .error e => return .error e

end EvalM
end PathQuery
