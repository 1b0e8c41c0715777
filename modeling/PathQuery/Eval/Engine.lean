import PathQuery.Eval.Function
import PathQuery.Eval.Slice
import PathQuery.Eval.Walk

/-!
# Evaluation

A term is evaluated against a list of items. Paths run over the whole list; operators run once for
each item and read the first item of each operand. A step of a path maps the items at hand to the
next ones and keeps every node once.
-/

namespace PathQuery

open EvalM

/-! ### Steps without terms -/

namespace Step

/-- The nodes that a step selects from one node by itself. -/
def select (env : Env) (segment : Segment) (a : Address) : EvalM (List Address) :=
  match segment with
  | .child name => children env a (.name name)
  | .index i => children env a (.index i)
  | .wildcard => children env a .wildcard
  | .anyIndex => if env.backend.kind a = .list then children env a .wildcard else return []
  | .slice first stop step =>
    if env.backend.kind a = .list then do
      let found ← children env a .wildcard
      return slice found first stop step
    else return []
  | _ => return []

def selectAll (env : Env) (segment : Segment) (items : List Item) : EvalM (List Item) :=
  collect (items.filterMap Item.node?) fun a => do
    let found ← select env segment a
    return found.map Item.node

/-- What a filter is tried on: the elements of a list, otherwise the item itself. -/
def candidates (env : Env) (item : Item) : EvalM (List Item) :=
  match item with
  | .node a =>
    if env.backend.kind a = .list then do
      let found ← children env a .wildcard
      return found.map Item.node
    else return [.node a]
  | .scalar v => return [.scalar v]

/-- The nodes of some items and everything below them, in the order of a walk; without
`includeSelf`, not the nodes the walk starts at. -/
def descend (env : Env) (includeSelf : Bool) (items : List Item) : EvalM (List Item) := do
  let starts := (items.filterMap Item.node?).map fun a => (⟨a, true⟩ : Visit)
  let visits := env.backend.walk ∅ starts
  modify fun c => visits.foldl (fun c v => c.record v.node (env.backend.get v.node .wildcard)) c
  return (visits.filter fun v => includeSelf || !v.isStart).map fun v => .node v.node

/-- Whether the result of a test keeps the candidate at `i` of `length`: an integer at a positional
test is a position, negative from the end; otherwise the first item is tested for truth. -/
def keeps (env : Env) (positional : Bool) (length i : Nat) (result : List Item) : Bool :=
  match result with
  | [] => false
  | item :: _ =>
    match positional, item with
    | true, .scalar (.int n) => decide (fromStart length n = i)
    | _, _ => env.backend.truth item

def keepFrom (env : Env) (positional : Bool) (length : Nat) (test : List Item → EvalM (List Item)) :
    Nat → List Item → EvalM (List Item)
  | _, [] => return []
  | i, item :: items => do
    modify fun c => { c with index := some i }
    let result ← test [item]
    let rest ← keepFrom env positional length test (i + 1) items
    return if keeps env positional length i result then item :: rest else rest

/-- The candidates that a test keeps, tried with all of them as the list in force. -/
def filterCandidates (env : Env) (positional : Bool) (test : List Item → EvalM (List Item))
    (found : List Item) : EvalM (List Item) :=
  within found (keepFrom env positional found.length test 0 found)

def filterAll (env : Env) (positional : Bool) (test : List Item → EvalM (List Item))
    (items : List Item) : EvalM (List Item) :=
  collect items fun item => do
    let found ← candidates env item
    filterCandidates env positional test found

end Step

/-! ### Operators on results -/

/-- Whether the first item of a result is true; no item is false. -/
def firstTruth (b : Backend) (result : List Item) : Bool := result.head?.any b.truth

/-- A binary operator other than the logical ones on the first items of its operands: a comparison
with a missing operand is false, arithmetic with one has no result. -/
def applyBinary (env : Env) (op : BinaryOp) (lhs rhs : Option Item) : EvalM (List Item) :=
  if op.isComparison then
    match lhs, rhs with
    | some l, some r => return [.scalar (.bool (env.backend.holds env.settings.tolerance op l r))]
    | _, _ => return [.scalar (.bool false)]
  else
    match lhs, rhs with
    | some l, some r => settle env (env.backend.arithmetic op l r)
    | _, _ => return []

def callFunction (env : Env) (registry : Registry) (name : String) (args : List Argument)
    (context input : List Item) : EvalM (List Item) :=
  match registry.find? name with
  | some f => f.apply env name args context input
  | none => throw (.unregistered name)

/-! ### Terms and segments -/

mutual

/-- Evaluates a term against some items. -/
def Term.eval (env : Env) (registry : Registry) (t : Term) (items : List Item) :
    EvalM (List Item) :=
  traced env t items.length <|
    match t with
    | .literal v => return [.scalar v]
    | .path start segments => do
      let begin_ ← start.eval env registry items
      evalSegments env registry segments begin_
    | .call name args => callFunction env registry name (evalArgs env registry args) items items
    | .list terms => joined (Argument.against (evalArgs env registry terms) items)
    | .unary .not operand => collect items fun item => do
      let r ← operand.eval env registry [item]
      return [.scalar (.bool (!firstTruth env.backend r))]
    | .unary .neg operand => collect items fun item => do
      let r ← operand.eval env registry [item]
      match r with
      | [] => return []
      | a :: _ => settle env (env.backend.negate a)
    | .ternary test yes no => collect items fun item => do
      let r ← test.eval env registry [item]
      if firstTruth env.backend r then yes.eval env registry [item]
      else no.eval env registry [item]
    | .binary .and lhs rhs => collect items fun item => do
      let l ← lhs.eval env registry [item]
      -- the right operand is evaluated only where it decides
      if firstTruth env.backend l then do
        let r ← rhs.eval env registry [item]
        return [.scalar (.bool (firstTruth env.backend r))]
      else return [.scalar (.bool false)]
    | .binary .or lhs rhs => collect items fun item => do
      let l ← lhs.eval env registry [item]
      if firstTruth env.backend l then return [.scalar (.bool true)]
      else do
        let r ← rhs.eval env registry [item]
        return [.scalar (.bool (firstTruth env.backend r))]
    | .binary op lhs rhs => collect items fun item => do
      let l ← lhs.eval env registry [item]
      let r ← rhs.eval env registry [item]
      applyBinary env op l.head? r.head?

def Start.eval (env : Env) (registry : Registry) (s : Start) (items : List Item) :
    EvalM (List Item) :=
  match s with
  | .root => return [.node []]
  | .current => return items
  | .context => return items
  | .term t => t.eval env registry items

def Segment.step (env : Env) (registry : Registry) (s : Segment) (items : List Item) :
    EvalM (List Item) := do
  let found ← match s with
    | .call name args => callFunction env registry name (evalArgs env registry args) items items
    | .filter test => Step.filterAll env false (fun here => test.eval env registry here) items
    | .predicate test => Step.filterAll env true (fun here => test.eval env registry here) items
    | .recursive inner => do
      -- the inner segment sees the starting nodes as well as all below them
      let nodes ← Step.descend env true items
      inner.step env registry nodes
    | .recursiveWildcard => Step.descend env false items
    | s => Step.selectAll env s items
  distinct found

/-- Applies steps in turn, until nothing is left. -/
def evalSegments (env : Env) (registry : Registry) (segments : List Segment) (items : List Item) :
    EvalM (List Item) :=
  match segments with
  | [] => return items
  | s :: ss =>
    if items.isEmpty then return items
    else do
      let next ← s.step env registry items
      evalSegments env registry ss next

def evalArgs (env : Env) (registry : Registry) (terms : List Term) : List Argument :=
  match terms with
  | [] => []
  | t :: ts => ⟨t, fun items => t.eval env registry items⟩ :: evalArgs env registry ts

end

end PathQuery
