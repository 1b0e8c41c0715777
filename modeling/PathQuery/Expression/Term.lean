import PathQuery.Value.Scalar

/-!
# Terms

The tree of an expression: literals, paths made of segments, calls, operators and lists. Terms,
path starts and segments contain each other.
-/

namespace PathQuery

/-! ### Operators -/

inductive UnaryOp where
  | not
  | neg
  deriving DecidableEq, Repr

def UnaryOp.text : UnaryOp → String
  | not => "!"
  | neg => "-"

inductive BinaryOp where
  | or
  | and
  | equal
  | notEqual
  | same
  | notSame
  | less
  | lessEqual
  | greater
  | greaterEqual
  | bitOr
  | bitXor
  | bitAnd
  | add
  | sub
  | mul
  | div
  | mod
  | pow
  deriving DecidableEq, Repr

namespace BinaryOp

def text : BinaryOp → String
  | or => "||"
  | and => "&&"
  | equal => "=="
  | notEqual => "!="
  | same => "==="
  | notSame => "!=="
  | less => "<"
  | lessEqual => "<="
  | greater => ">"
  | greaterEqual => ">="
  | bitOr => "|"
  | bitXor => "^"
  | bitAnd => "&"
  | add => "+"
  | sub => "-"
  | mul => "*"
  | div => "/"
  | mod => "%"
  | pow => "**"

/-- Binding strength; a larger one binds tighter. -/
def precedence : BinaryOp → Nat
  | or => 1
  | and => 2
  | equal | notEqual | same | notSame => 3
  | less | lessEqual | greater | greaterEqual => 4
  | bitOr => 5
  | bitXor => 6
  | bitAnd => 7
  | add | sub => 8
  | mul | div | mod => 9
  | pow => 11

def isComparison : BinaryOp → Bool
  | equal | notEqual | same | notSame | less | lessEqual | greater | greaterEqual => true
  | _ => false

end BinaryOp

/-! ### Terms, starts and segments -/

mutual

inductive Term where
  | literal (value : Scalar)
  | path (start : Start) (segments : List Segment)
  | call (name : String) (args : List Term)
  | unary (op : UnaryOp) (operand : Term)
  | binary (op : BinaryOp) (lhs rhs : Term)
  | ternary (test yes no : Term)
  /-- A list in parentheses: results are concatenated. -/
  | list (terms : List Term)

inductive Start where
  /-- `$` -/
  | root
  /-- `@` -/
  | current
  /-- A path that begins with its first segment. -/
  | context
  /-- Any other primary expression. -/
  | term (t : Term)

inductive Segment where
  /-- `.name` or `['name']` -/
  | child (name : String)
  /-- `[n]`; a negative number counts from the end of a list. -/
  | index (i : Int64)
  /-- `[*]`: every element of a list. -/
  | anyIndex
  /-- `.*`: every child. -/
  | wildcard
  /-- `..name`, `..[sel]`: a step from a node and each of its descendants. -/
  | recursive (inner : Segment)
  /-- `..*`: every descendant. -/
  | recursiveWildcard
  | slice (first stop step : Option Int64)
  /-- `[?(e)]`: the candidates for which `e` is true. -/
  | filter (test : Term)
  /-- `[e]`: an integer result is a position, any other is tested for truth. -/
  | predicate (test : Term)
  /-- `.name(args)` -/
  | call (name : String) (args : List Term)

end

instance : Inhabited Term := ⟨.literal .null⟩

/-! ### Structural equality -/

mutual

/-- Whether two terms are the same tree. -/
def Term.sameAs : Term → Term → Bool
  | .literal a, .literal b => decide (a = b)
  | .path s ss, .path s' ss' => s.sameAs s' && sameSegments ss ss'
  | .call n ts, .call n' ts' => decide (n = n') && sameTerms ts ts'
  | .unary o t, .unary o' t' => decide (o = o') && t.sameAs t'
  | .binary o l r, .binary o' l' r' => decide (o = o') && l.sameAs l' && r.sameAs r'
  | .ternary a b c, .ternary a' b' c' => a.sameAs a' && b.sameAs b' && c.sameAs c'
  | .list ts, .list ts' => sameTerms ts ts'
  | _, _ => false

def Start.sameAs : Start → Start → Bool
  | .root, .root => true
  | .current, .current => true
  | .context, .context => true
  | .term t, .term t' => t.sameAs t'
  | _, _ => false

def Segment.sameAs : Segment → Segment → Bool
  | .child n, .child n' => decide (n = n')
  | .index i, .index i' => decide (i = i')
  | .anyIndex, .anyIndex => true
  | .wildcard, .wildcard => true
  | .recursive s, .recursive s' => s.sameAs s'
  | .recursiveWildcard, .recursiveWildcard => true
  | .slice a b c, .slice a' b' c' => decide (a = a' ∧ b = b' ∧ c = c')
  | .filter t, .filter t' => t.sameAs t'
  | .predicate t, .predicate t' => t.sameAs t'
  | .call n ts, .call n' ts' => decide (n = n') && sameTerms ts ts'
  | _, _ => false

def sameTerms : List Term → List Term → Bool
  | [], [] => true
  | t :: ts, t' :: ts' => t.sameAs t' && sameTerms ts ts'
  | _, _ => false

def sameSegments : List Segment → List Segment → Bool
  | [], [] => true
  | s :: ss, s' :: ss' => s.sameAs s' && sameSegments ss ss'
  | _, _ => false

end

end PathQuery
