import PathQuery.Configuration
import PathQuery.Eval.Engine

/-!
# Queries

A query is an expression compiled under a configuration. It can be evaluated from any root, each time
in a fresh context; its result is the list of matches with the context they were found in.
-/

namespace PathQuery

structure Query where
  source : String
  terms : List Term
  config : Configuration

/-- The outcome of an evaluation. -/
structure Matches where
  items : List Item
  env : Env
  context : Context

inductive QueryError where
  | syntaxError (e : SyntaxError)
  | eval (e : EvalError)
  deriving DecidableEq

def QueryError.message : QueryError → String
  | syntaxError e => e.display
  | eval e => e.message

/-! ### Evaluating terms -/

def evalTerms (env : Env) (registry : Registry) (terms : List Term) (items : List Item) :
    EvalM (List Item) :=
  EvalM.joined (Argument.against (evalArgs env registry terms) items)

/-- The items of every term against some items, joined and without repeated nodes. -/
def selectTerms (env : Env) (registry : Registry) (terms : List Term) (items : List Item) :
    EvalM (List Item) := do
  let found ← evalTerms env registry terms items
  EvalM.distinct found

namespace Query

/-! ### Compiling -/

def compile (config : Configuration) (source : String) : Except SyntaxError Query := do
  let terms ← parse config.functions.signatures source
  return ⟨source, terms, config⟩

def canonical (q : Query) : String := canonicalText q.terms

/-- What is compared when queries are: their canonical texts, and how their configurations compare
and compute values. -/
def comparisonKey (q : Query) : String × UInt64 × Bool :=
  (q.canonical, q.config.settings.tolerance.toBits, q.config.settings.strict)

/-- Two queries are equal if they do the same under configurations that compare values alike. -/
instance : BEq Query := ⟨fun a b => a.comparisonKey == b.comparisonKey⟩

/-! ### Evaluating -/

def select (q : Query) (env : Env) (items : List Item) : EvalM (List Item) :=
  selectTerms env q.config.functions q.terms items

/-- Evaluates from the root of a backend in a fresh context. -/
def run (q : Query) (env : Env) : Except EvalError (List Item) × Context :=
  (selectTerms env q.config.functions q.terms [.node []]).runFrom .initial

/-- Evaluates from the root that some opener of the configuration accepts. -/
def evaluate (q : Query) (root : Root) : Except EvalError Matches := do
  let env ← q.config.open? root
  match q.run env with
  | (.ok items, c) => return ⟨items, env, c⟩
  | (.error e, _) => throw e

end Query

namespace Matches

/-- The first item, null if there is none. -/
def first (m : Matches) : Item := m.items.head?.getD (.scalar .null)

def firstText? (m : Matches) : Option String := m.items.head?.bind m.env.backend.textOf?

/-- The items with nodes replaced by the scalars they hold. -/
def reduced (m : Matches) : List Item := m.items.map m.env.backend.reduce

end Matches

/-! ### Documents -/

/-- The results of an expression over a JSON document, as JSON. -/
def queryDocument (source : String) (d : Json.Document) : Except QueryError (List Json) := do
  let q ← (Query.compile .default source).mapError .syntaxError
  let m ← (q.evaluate (.json d)).mapError .eval
  return m.items.map (Root.json d).itemJson

/-- The first result of an expression over a JSON document; null without one and after an error. -/
def queryFirst (source : String) (d : Json.Document) : Json :=
  match queryDocument source d with
  | .ok (v :: _) => v
  | _ => .null

end PathQuery
