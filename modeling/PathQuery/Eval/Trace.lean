import PathQuery.Eval.Arithmetic
import PathQuery.Expression.Canonical

/-!
# Traces

An evaluation can leave a trace: an event when it starts and finishes a term, with the depth raised
in between, and one for each operation without a result. A trace is kept newest first and shown as
lines in one of two styles.
-/

namespace PathQuery

inductive TraceEvent where
  | start (t : Term) (count : Nat)
  | enter
  | exit
  | finish (t : Term) (count : Nat)
  /-- An operation has failed and is treated as missing. -/
  | noResult (failure : ArithmeticFailure)

namespace TraceEvent

/-- The event in words; a change of depth has none. -/
def message? : TraceEvent → Option String
  | start t n => some ("eval " ++ t.canonical ++ " on " ++ toString n ++ " node(s)")
  | finish t n => some (t.canonical ++ " -> " ++ toString n ++ " item(s)")
  | noResult f => some (f.message ++ ", no result")
  | enter => none
  | exit => none

def depthAfter (depth : Nat) : TraceEvent → Nat
  | enter => depth + 1
  | exit => depth - 1
  | _ => depth

end TraceEvent

namespace Trace

/-- Lines with the depth before each message; failed operations are left out. -/
def numberedLines (depth : Nat) : List TraceEvent → List String
  | [] => []
  | .noResult _ :: es => numberedLines depth es
  | e :: es =>
    let here := e.message?.toList.map fun m => toString depth ++ ":" ++ m
    here ++ numberedLines (e.depthAfter depth) es

/-- Lines indented two blanks per level; failed operations are not indented. -/
def indentedLines (depth : Nat) : List TraceEvent → List String
  | [] => []
  | .noResult f :: es =>
    (TraceEvent.noResult f).message?.toList ++ indentedLines depth es
  | e :: es =>
    let here := e.message?.toList.map fun m => String.ofList (List.replicate (2 * depth) ' ') ++ m
    here ++ indentedLines (e.depthAfter depth) es

end Trace
end PathQuery
