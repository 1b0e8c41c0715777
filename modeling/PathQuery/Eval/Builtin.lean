import PathQuery.Eval.Arity
import PathQuery.Eval.Function
import PathQuery.Text.Casing
import PathQuery.Text.Escape

/-!
# Built-in functions

Most functions read the items of all their arguments together, or, called without arguments, the
items they are applied to. They fall into those that reduce the items to one, those that turn each
item into at most one, those that treat items as sets, and those that ask about the evaluation.
-/

namespace PathQuery
namespace Builtin

/-! ### Arguments -/

/-- The items of all arguments, or the input of a call without arguments. -/
def gather (args : List (EvalM (List Item))) (input : List Item) : EvalM (List Item) :=
  if args.isEmpty then return input else EvalM.joined args

/-- Turns each gathered item into at most one. -/
def mapped (f : Env → Item → Option Item) :
    Env → String → List (EvalM (List Item)) → List Item → EvalM (List Item) :=
  fun env _ args input => do
    let items ← gather args input
    return items.filterMap (f env)

/-- Reduces the gathered items to at most one. -/
def reduced (f : Env → List Item → Option Scalar) :
    Env → String → List (EvalM (List Item)) → List Item → EvalM (List Item) :=
  fun env _ args input => do
    let items ← gather args input
    return ((f env items).map Item.scalar).toList

/-! ### Numbers -/

/-- A total on the way: exact while all items were integers and every sum has fitted, and as a real. -/
structure Total where
  exact : Option Int64
  real : Float

/-- Adds an item; what has no number is passed over. -/
def Total.add (b : Backend) (t : Total) (item : Item) : Total :=
  match b.reduce item with
  | .scalar (.int i) =>
    ⟨t.exact.bind fun e => fitInt64? (e.toInt + i.toInt), t.real + realOfInt i⟩
  | other =>
    match b.number? other with
    | some r => ⟨none, t.real + r⟩
    | none => t

/-- The exact total if there is one, otherwise the real one. -/
def Total.scalar (t : Total) : Scalar :=
  match t.exact with
  | some i => .int i
  | none => .real t.real

def sum (b : Backend) (items : List Item) : Scalar :=
  (items.foldl (Total.add b) ⟨some 0, 0.0⟩).scalar

/-- The first item whose number no later one is better than, as an integer or a real. -/
def extreme (better : Float → Float → Bool) (b : Backend) (items : List Item) : Option Scalar :=
  let step (best : Option (Float × Scalar)) (item : Item) : Option (Float × Scalar) :=
    match b.number? item with
    | none => best
    | some r =>
      if best.all fun held => better r held.1 then
        match b.reduce item with
        | .scalar (.int i) => some (r, .int i)
        | _ => some (r, .real r)
      else best
  (items.foldl step none).map Prod.snd

def roundingOf (name : String) : Binary64.Rounding :=
  if name = "floor" then .floor else if name = "ceil" then .ceiling else .nearest

/-- A real rounded to a whole number, as an integer if it fits. -/
def roundReal (mode : Binary64.Rounding) (r : Float) : Scalar :=
  match Binary64.ofFloat? r with
  | none => .real r
  | some x =>
    match fitInt64? (x.round mode) with
    | some i => if i.toInt.natAbs < 0x8000000000000000 then .int i else .real r
    | none => .real r

/-- An item rounded; integers stay, and what has no number is dropped. -/
def roundItem (mode : Binary64.Rounding) (b : Backend) (item : Item) : Option Item :=
  match b.reduce item with
  | .scalar (.int i) => some (.scalar (.int i))
  | other => (b.number? other).map fun r => .scalar (roundReal mode r)

/-- An item as a number: truth values are 0 and 1, and texts may spell one. -/
def numberItem (b : Backend) (item : Item) : Option Item :=
  match b.reduce item with
  | .scalar (.int i) => some (.scalar (.int i))
  | .scalar (.bool t) => some (.scalar (.int (if t then 1 else 0)))
  | .scalar (.str s) =>
    match Scalar.integer? (.str s) with
    | some i => some (.scalar (.int i))
    | none => (Scalar.number? (.str s)).map fun r => .scalar (.real r)
  | other => (b.number? other).map fun r => .scalar (.real r)

/-! ### Texts -/

def mappedText (f : String → String) :
    Env → String → List (EvalM (List Item)) → List Item → EvalM (List Item) :=
  mapped fun env item => (env.backend.textOf? item).map fun s => .scalar (.str (f s))

def contained (part : List Char) : List Char → Bool
  | [] => part.isEmpty
  | c :: cs => part.isPrefixOf (c :: cs) || contained part cs

/-- The text of the first item of each argument, put together. -/
def concatenated (env : Env) : List (EvalM (List Item)) → EvalM String
  | [] => return ""
  | arg :: args => do
    let items ← arg
    let here := (items.head?.bind env.backend.textOf?).getD ""
    let rest ← concatenated env args
    return here ++ rest

/-- The characters of a text, or the children of a node without a scalar. -/
def lengthItem (env : Env) (item : Item) : EvalM (List Item) :=
  match env.backend.reduce item with
  | .scalar (.str s) => return [.scalar (.int (Int64.ofNat s.length))]
  | .scalar _ => return []
  | .node a => do
    let found ← EvalM.children env a .wildcard
    return [.scalar (.int (Int64.ofNat found.length))]

/-- Whether the first item of one argument contains that of another: as a part of its text, or, for
a node without a scalar, as a child loosely equal to it. -/
def containsItem (env : Env) (haystack needle : Item) : EvalM Bool :=
  match env.backend.reduce haystack with
  | .node a => do
    let found ← EvalM.children env a .wildcard
    return found.any fun child =>
      env.backend.holds env.settings.tolerance .equal (.node child) needle
  | .scalar _ =>
    match env.backend.textOf? haystack, env.backend.textOf? needle with
    | some h, some n => return contained n.toList h.toList
    | _, _ => return false

/-! ### Sets -/

def member (b : Backend) (items : List Item) (item : Item) : Bool :=
  items.any fun other => b.same other item

/-- The items without those strictly equal to an earlier one that is kept. -/
def union (b : Backend) (items : List Item) : List Item :=
  items.foldl (fun kept item => if member b kept item then kept else kept ++ [item]) []

/-- The items of the first set that are in every other one, without those strictly equal to an
earlier one that is kept. -/
def intersection (b : Backend) : List (List Item) → List Item
  | [] => []
  | first :: others =>
    first.foldl (fun kept item =>
      if others.all (fun set => member b set item) && !member b kept item then kept ++ [item]
      else kept) []

def separately : List (EvalM (List Item)) → EvalM (List (List Item))
  | [] => return []
  | arg :: args => do
    let here ← arg
    let rest ← separately args
    return here :: rest

def addressText (a : Address) : String :=
  String.ofList (a.flatMap fun i => '/' :: Nat.toDigits 10 i)

/-- A text that tells values apart: its head names the kind, so texts cannot look like numbers, and
whole reals look like integers. -/
def uniqueKey (b : Backend) (item : Item) : String :=
  match b.reduce item with
  | .scalar .null => "null"
  | .scalar (.bool t) => "b:" ++ Scalar.boolText t
  | .scalar (.int i) => "n:" ++ intText i
  | .scalar (.real r) =>
    let whole : Option Int64 := (Binary64.ofFloat? r).bind fun x =>
      if x.isIntegral then fitInt64? (x.round .floor) else none
    match whole with
    | some i =>
      if i.toInt.natAbs < 0x8000000000000000 then "n:" ++ intText i
      else "n:" ++ RealStyle.plainValue.text r
    | none => "n:" ++ RealStyle.plainValue.text r
  | .scalar (.str s) => "s:" ++ s
  | .node a => "node:" ++ addressText a

/-- The items whose key is met for the first time. -/
def uniqueFrom (b : Backend) (seen : Std.TreeSet String compare) : List Item → List Item
  | [] => []
  | item :: items =>
    let key := uniqueKey b item
    if seen.contains key then uniqueFrom b seen items
    else item :: uniqueFrom b (seen.insert key) items

/-! ### The table -/

/-- Refuses a call with a number of arguments outside of an arity. -/
def counted (arity : Arity) (name : String) (args : List Term) : Option String :=
  (arity.check? name args.length).map ArityMismatch.message

/-- A function that answers to some names and evaluates its arguments where the call stands. -/
def answering (name : String) (answersTo : String → Bool) (arity : Arity)
    (run : Env → String → List (EvalM (List Item)) → List Item → EvalM (List Item)) : Function where
  name := name
  answersTo := answersTo
  verify := counted arity
  apply env asked args context input := run env asked (Argument.against args context) input

/-- A function that answers to its name only. -/
def plain (name : String) (arity : Arity)
    (run : Env → String → List (EvalM (List Item)) → List Item → EvalM (List Item)) : Function :=
  answering name (fun asked => asked == name) arity run

/-- At most one argument, which replaces the input. -/
def optional : Arity := .between 0 1

def count : Function :=
  plain "count" (.atLeast 0) (reduced fun _ items => some (.int (Int64.ofNat items.length)))

def sumFunction : Function :=
  plain "sum" (.atLeast 0) (reduced fun env items => some (sum env.backend items))

def minimum : Function :=
  plain "min" (.atLeast 0) (reduced fun env => extreme (fun a b => a < b) env.backend)

def maximum : Function :=
  plain "max" (.atLeast 0) (reduced fun env => extreme (fun a b => b < a) env.backend)

/-- `round`, `floor` and `ceil`: whole numbers. -/
def rounding : Function :=
  answering "round" (fun asked => asked == "round" || asked == "floor" || asked == "ceil") optional
    fun env name => mapped (fun env => roundItem (roundingOf name) env.backend) env name

def number : Function := plain "number" optional (mapped fun env => numberItem env.backend)

def string : Function := plain "string" optional (mappedText id)

def encode : Function := plain "encode" optional (mappedText (encodeXml true))

def lower : Function := plain "lower" optional (mappedText lowerText)

def upper : Function := plain "upper" optional (mappedText upperText)

def unionFunction : Function :=
  plain "union" (.atLeast 1) fun env _ args input => do
    let items ← gather args input
    return union env.backend items

def intersectionFunction : Function :=
  plain "intersection" (.atLeast 2) fun env _ args _ => do
    let sets ← separately args
    return intersection env.backend sets

def unique : Function :=
  plain "unique" optional fun env _ args input => do
    let items ← gather args input
    return uniqueFrom env.backend ∅ items

def key : Function :=
  plain "key" optional fun _ _ args input => do
    let items ← gather args input
    let c ← get
    return items.filterMap fun item =>
      (item.node?.bind c.key?).map fun k => .scalar (.str k)

def index : Function :=
  plain "index" optional fun _ _ args input => do
    let items ← gather args input
    let c ← get
    return items.filterMap fun item =>
      (item.node?.bind c.index?).map fun i => .scalar (.int (Int64.ofNat i))

def type : Function :=
  plain "type" optional (mapped fun env item => some (.scalar (.str (env.backend.itemKind item).text)))

def parent : Function :=
  plain "parent" optional fun _ _ args input => do
    let items ← gather args input
    let c ← get
    EvalM.distinct (items.filterMap fun item => (item.node?.bind c.parent?).map Item.node)

def position : Function :=
  plain "position" (.exactly 0) fun _ _ _ _ => do
    let c ← get
    return (c.index.map fun i => Item.scalar (.int (Int64.ofNat i))).toList

def locale : Function :=
  plain "locale" (.exactly 0) fun env _ _ _ => return [.scalar (.str env.settings.locale)]

def length : Function :=
  plain "length" optional fun env _ args input => do
    let items ← gather args input
    EvalM.collect items (lengthItem env)

def concat : Function :=
  plain "concat" (.atLeast 1) fun env _ args _ => do
    let s ← concatenated env args
    return [.scalar (.str s)]

def contains : Function :=
  plain "contains" (.exactly 2) fun env _ args _ =>
    match args with
    | [haystack, needle] => do
      let hs ← haystack
      let ns ← needle
      match hs, ns with
      | h :: _, n :: _ => do
        let found ← containsItem env h n
        return [.scalar (.bool found)]
      | _, _ => return [.scalar (.bool false)]
    | _ => return [.scalar (.bool false)]

def first : Function :=
  plain "first" optional fun _ _ args input => do
    let items ← gather args input
    return items.take 1

/-- `or_default`: the first argument, or the second if that is empty or all null. -/
def orDefault : Function :=
  plain "or_default" (.exactly 2) fun env _ args _ =>
    match args with
    | [value, fallback] => do
      let items ← value
      if items.all fun item => env.backend.reduce item = .scalar .null then fallback
      else return items
    | _ => return []

def all : List Function :=
  [count, sumFunction, minimum, maximum, rounding, number, string, encode, unionFunction,
   intersectionFunction, key, index, type, parent, position, locale, lower, upper, length, concat,
   contains, first, unique, orDefault]

end Builtin

namespace Registry

def builtins : Registry := ⟨Builtin.all⟩

end Registry

end PathQuery
