import PathQuery.Template.Part

/-!
# Nesting of blocks

Parts are assembled piece by piece. Blocks that are open form a stack, and a part goes into the
innermost one. The end of a block takes it off the stack and makes it a part of what is around it.
-/

namespace PathQuery

inductive BlockKind where
  | loop
  | choice
  deriving DecidableEq, Repr

/-- A block that is open. Parts are kept latest first. -/
structure OpenBlock where
  kind : BlockKind
  terms : List Term
  /-- The byte of the tag that opened it. -/
  offset : Nat
  body : List Part
  /-- What follows the turning point of a choice, once it has been met. -/
  otherwise : Option (List Part)

namespace OpenBlock

def add (b : OpenBlock) (p : Part) : OpenBlock :=
  match b.otherwise with
  | some parts => { b with otherwise := some (p :: parts) }
  | none => { b with body := p :: b.body }

def close (b : OpenBlock) : Part :=
  match b.kind with
  | .loop => .loop b.terms b.body.reverse
  | .choice => .choice b.terms b.body.reverse (b.otherwise.getD []).reverse

/-- Whether the turning point of a choice may come next. -/
def mayTurn (b : OpenBlock) : Bool := decide (b.kind = .choice) && b.otherwise.isNone

/-- Whether an end that names terms, or none, ends the block. -/
def closedBy (b : OpenBlock) : Option (List Term) → Bool
  | none => true
  | some closing => canonicalText closing == canonicalText b.terms

end OpenBlock

structure Nesting where
  /-- The blocks that are open, innermost first. -/
  blocks : List OpenBlock
  /-- The parts outside of all blocks, latest first. -/
  parts : List Part

namespace Nesting

def empty : Nesting := ⟨[], []⟩

/-- Adds a part to the innermost block, or outside of all. -/
def add (n : Nesting) (p : Part) : Nesting :=
  match n.blocks with
  | b :: outer => { n with blocks := b.add p :: outer }
  | [] => { n with parts := p :: n.parts }

def enter (n : Nesting) (kind : BlockKind) (terms : List Term) (offset : Nat) : Nesting :=
  { n with blocks := ⟨kind, terms, offset, [], none⟩ :: n.blocks }

/-- Does what the mark of a piece at byte `offset` asks for. -/
def place (n : Nesting) (offset : Nat) : Mark → Except TemplateFault Nesting
  | .text s => .ok (n.add (.text s))
  | .value terms => .ok (n.add (.value terms))
  | .insertion name => .ok (n.add (.insertion name))
  | .loop subject => .ok (n.enter .loop subject offset)
  | .choice guard => .ok (n.enter .choice guard offset)
  | .otherwise =>
    match n.blocks with
    | b :: outer =>
      if b.mayTurn then .ok { n with blocks := { b with otherwise := some [] } :: outer }
      else .error ⟨.misplacedOtherwise, offset⟩
    | [] => .error ⟨.misplacedOtherwise, offset⟩
  | .close opening =>
    match n.blocks with
    | b :: outer =>
      if b.closedBy opening then .ok (add { n with blocks := outer } b.close)
      else .error ⟨.wrongClose (opening.getD []) b.terms, offset⟩
    | [] => .error ⟨.nothingToClose, offset⟩

/-- Whether a tag would end a block where none is open. -/
def endsNothing (n : Nesting) (body : List Char) : Bool :=
  n.blocks.isEmpty && (Mark.splitSign body).1 == some .close

/-- Adds a piece. That no block is open is found before the terms an end names are read. -/
def step (check? : Signatures) (n : Nesting) : Piece → Except TemplateFault Nesting
  | .text cs => .ok (n.add (.text (String.ofList cs)))
  | .comment _ _ => .ok n
  | .unclosed offset => .error ⟨.unclosedTag, offset⟩
  | .tag offset body =>
    if n.endsNothing body then .error ⟨.nothingToClose, offset⟩
    else do
      let mark ← Mark.ofTag check? offset body
      n.place offset mark

def steps (check? : Signatures) (n : Nesting) : List Piece → Except TemplateFault Nesting
  | [] => .ok n
  | p :: ps => do
    let next ← n.step check? p
    next.steps check? ps

def finish (n : Nesting) : Except TemplateFault (List Part) :=
  match n.blocks with
  | [] => .ok n.parts.reverse
  | b :: _ => .error ⟨.neverClosed b.terms, b.offset⟩

end Nesting

def parseTemplate (check? : Signatures) (source : String) :
    Except TemplateSyntaxError (List Part) :=
  let cs := source.toList
  let assembled := do
    let n ← Nesting.empty.steps check? (Piece.ofSource cs)
    n.finish
  assembled.mapError (TemplateSyntaxError.ofFault cs)

end PathQuery
