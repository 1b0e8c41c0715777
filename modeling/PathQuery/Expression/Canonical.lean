import PathQuery.Expression.Term
import PathQuery.Expression.Lexer

/-!
# Canonical texts

Every term has one canonical text. Compound terms are put between parentheses, names that could be
read as something else are quoted, and a path writes its segments one after the other.
-/

namespace PathQuery

/-! ### Names and strings -/

/-- Whether a name can stand after a point as it is. -/
def isPlainName (name : String) : Bool :=
  match name.toList with
  | [] => false
  | c :: cs =>
    c != '\\' && Lexer.isNameStart c && cs.all (fun c => c != '\\' && Lexer.isNameChar c) &&
      !(["true", "false", "null"].contains name)

def stringChar (c : Char) : List Char :=
  if c = '"' then ['\\', '"']
  else if c = '\\' then ['\\', '\\']
  else if c = '\n' then ['\\', 'n']
  else if c = '\r' then ['\\', 'r']
  else if c = '\t' then ['\\', 't']
  else [c]

/-- A string between double quotes. -/
def stringChars (s : String) : List Char :=
  '"' :: (s.toList.flatMap stringChar ++ ['"'])

def Scalar.canonical : Scalar → List Char
  | .null => "null".toList
  | .bool b => (Scalar.boolText b).toList
  | .int i => intChars i
  | .real r => (RealStyle.literal.text r).toList
  | .str s => stringChars s

/-! ### Terms -/

/-- Whether the text of a term begins with a sign, so that a power of it needs parentheses. -/
def Term.isSigned : Term → Bool
  | .unary _ _ => true
  | .literal (.int i) => i.toInt < 0
  | .literal (.real r) => Binary64.signBit ≤ r.toBits.toNat && !r.isNaN
  | _ => false

/-- The point before a segment, left out at the head of a path. -/
def dotUnless (leading : Bool) : List Char := if leading then [] else ['.']

/-- A bound of a slice; an absent one is empty. -/
def boundChars : Option Int64 → List Char
  | none => []
  | some i => intChars i

mutual

/-- The canonical text of a term. -/
def Term.chars : Term → List Char
  | .literal v => v.canonical
  | .path start segments => start.chars ++ segmentsChars start.isLeading segments
  | .call name args => name.toList ++ '(' :: (termsChars args ++ [')'])
  | .unary op t => op.text.toList ++ t.chars
  | .binary op l r =>
    let left := if op = .pow && l.isSigned then '(' :: (l.chars ++ [')']) else l.chars
    '(' :: (left ++ ' ' :: (op.text.toList ++ ' ' :: (r.chars ++ [')'])))
  | .ternary a b c =>
    '(' :: (a.chars ++ ' ' :: '?' :: ' ' :: (b.chars ++ ' ' :: ':' :: ' ' :: (c.chars ++ [')'])))
  | .list ts => '(' :: (termsChars ts ++ [')'])

def Start.chars : Start → List Char
  | .root => ['$']
  | .current => ['@']
  | .context => []
  | .term t => '(' :: (t.chars ++ [')'])

/-- Whether the first segment stands at the head of the path. -/
def Start.isLeading : Start → Bool
  | .context => true
  | _ => false

def Segment.chars (leading : Bool) : Segment → List Char
  | .child name =>
    if isPlainName name then dotUnless leading ++ name.toList
    else '[' :: (stringChars name ++ [']'])
  | .index i => '[' :: (intChars i ++ [']'])
  | .anyIndex => ['[', '*', ']']
  | .wildcard => dotUnless leading ++ ['*']
  | .recursive inner => '.' :: '.' :: inner.chars true
  | .recursiveWildcard => ['.', '.', '*']
  | .slice first stop step =>
    let last := match step with
      | none => []
      | some i => ':' :: intChars i
    '[' :: (boundChars first ++ ':' :: (boundChars stop ++ last ++ [']']))
  | .filter t => '[' :: '?' :: '(' :: (t.chars ++ [')', ']'])
  | .predicate t => '[' :: (t.chars ++ [']'])
  | .call name args => dotUnless leading ++ name.toList ++ '(' :: (termsChars args ++ [')'])

def segmentsChars (leading : Bool) : List Segment → List Char
  | [] => []
  | s :: ss => s.chars leading ++ segmentsChars false ss

def termsChars : List Term → List Char
  | [] => []
  | t :: ts => t.chars ++ moreTermsChars ts

def moreTermsChars : List Term → List Char
  | [] => []
  | t :: ts => ',' :: ' ' :: (t.chars ++ moreTermsChars ts)

end

def Term.canonical (t : Term) : String := String.ofList t.chars

def canonicalText (terms : List Term) : String := String.ofList (termsChars terms)

end PathQuery
