import PathQuery.Expression.Parser
import PathQuery.Template.Piece
import PathQuery.Template.SyntaxError

/-!
# Marks

A mark is what a piece of a template asks for: a text or a value to write, a text to include, or the
start, the turning point or the end of a block. The first sign in a tag tells which; blanks may stand
before it.
-/

namespace PathQuery

/-- What a piece of a template asks for. -/
inductive Mark where
  | text (s : String)
  | value (terms : List Term)
  | insertion (name : String)
  /-- The start of a block for each result. -/
  | loop (subject : List Term)
  /-- The start of a block for a first result that is true. -/
  | choice (guard : List Term)
  /-- Goes on with what a choice is otherwise. -/
  | otherwise
  /-- The end of a block, perhaps with the terms it started with. -/
  | close (opening : Option (List Term))

namespace Mark

/-! ### Signs -/

inductive Sign where
  | loop
  | choice
  | otherwise
  | close
  | insertion
  deriving DecidableEq, Repr

def Sign.ofChar? (c : Char) : Option Sign :=
  if c = '#' then some .loop
  else if c = '?' then some .choice
  else if c = ':' then some .otherwise
  else if c = '/' then some .close
  else if c = '>' then some .insertion
  else none

/-- The sign at the head of the body of a tag, with the bytes up to its end, and what follows it; a
body without a sign stays whole. -/
def splitSign (body : List Char) : Option Sign × Nat × List Char :=
  match body.dropWhile isBlank with
  | c :: rest =>
    match Sign.ofChar? c with
    | some sign => (some sign, byteLength (body.takeWhile isBlank) + c.utf8Size, rest)
    | none => (none, 0, body)
  | [] => (none, 0, body)

/-! ### Tags -/

def termsAt (check? : Signatures) (offset : Nat) (cs : List Char) :
    Except TemplateFault (List Term) :=
  (parse check? (String.ofList cs)).mapError fun e => ⟨.expression e.cause, offset + e.offset⟩

def isBlankRun (cs : List Char) : Bool := cs.all isBlank

/-- The mark of a tag whose opening braces are at byte `offset`. -/
def ofTag (check? : Signatures) (offset : Nat) (body : List Char) : Except TemplateFault Mark :=
  let (sign, skipped, rest) := splitSign body
  let terms := termsAt check? (offset + 2 + skipped) rest
  match sign with
  | some .loop => terms.map loop
  | some .choice => terms.map choice
  | some .otherwise =>
    if isBlankRun rest then .ok otherwise else .error ⟨.otherwiseWithExpression, offset⟩
  | some .close => if isBlankRun rest then .ok (close none) else terms.map fun ts => close (some ts)
  | some .insertion =>
    if isBlankRun rest then .error ⟨.namelessInclude, offset⟩
    else .ok (insertion (String.ofList (trimBlank rest)))
  | none => if isBlankRun rest then .error ⟨.emptyTag, offset⟩ else terms.map value

end Mark
end PathQuery
