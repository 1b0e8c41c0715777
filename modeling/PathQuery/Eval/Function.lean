import PathQuery.Eval.Context
import PathQuery.Expression.Parser

/-!
# Functions

A function has a name, perhaps others it answers to, arguments it does not take, and what it does with
those it takes. Arguments arrive unevaluated, so that a function decides which of them it evaluates, and
against which items. A registry holds functions by name.
-/

namespace PathQuery

/-- An argument of a call: its term, and how that is evaluated against some items. -/
@[ext]
structure Argument where
  term : Term
  eval : List Item → EvalM (List Item)

/-- All of some arguments against the same items. -/
def Argument.against (args : List Argument) (items : List Item) : List (EvalM (List Item)) :=
  args.map fun a => a.eval items

/-- A function that expressions can call. -/
structure Function where
  name : String
  /-- Whether a call under a name that no function is registered under may be one of it. -/
  answersTo : String → Bool
  /-- Why a call under the name used in it is refused before anything runs, if it is. -/
  verify : String → List Term → Option String
  /-- Runs a call under the name used in it, with the arguments, the items it stands at and the items it
  is applied to. -/
  apply : Env → String → List Argument → List Item → List Item → EvalM (List Item)

/-- Functions by name, at most one of each. -/
structure Registry where
  functions : List Function

namespace Registry

def empty : Registry := ⟨[]⟩

/-- Adds a function in the place of one of the same name. -/
def register (r : Registry) (f : Function) : Registry :=
  ⟨r.functions.filter (fun g => g.name != f.name) ++ [f]⟩

/-- The function of a name: the one registered under it, otherwise one that answers to it. -/
def find? (r : Registry) (name : String) : Option Function :=
  (r.functions.find? fun f => f.name = name).or
    (r.functions.find? fun f => f.answersTo name)

theorem of_find? {r : Registry} {name : String} {f : Function} (h : r.find? name = some f) :
    f ∈ r.functions ∧ (f.name = name ∨ f.answersTo name = true) := by
  rcases Option.or_eq_some_iff.mp h with hfound | ⟨_, hfound⟩
  · have hnamed := List.find?_some hfound
    exact ⟨List.mem_of_find?_eq_some hfound, .inl (of_decide_eq_true hnamed)⟩
  · have hanswers := List.find?_some hfound
    exact ⟨List.mem_of_find?_eq_some hfound, .inr hanswers⟩

theorem mem_of_find? {r : Registry} {name : String} {f : Function} (h : r.find? name = some f) :
    f ∈ r.functions :=
  (of_find? h).1

def signatures (r : Registry) : Signatures :=
  fun name => (r.find? name).map fun f => f.verify name

def names (r : Registry) : List String :=
  (r.functions.map Function.name).mergeSort fun a b => decide (a ≤ b)

end Registry
end PathQuery
