import PathQuery.Configuration
import PathQuery.Query
import PathQuery.Text.Escape
import PathQuery.Template.Nesting
import PathQuery.Template.Output

/-!
# Rendering

Parts are rendered in order against some current items. A loop puts its results in force and renders
its body once for each that is neither null nor false; a node becomes the current item of its body.
An included text is rendered where it stands, and its own includes are resolved at its location.
-/

namespace PathQuery

/-- What a rendering consults and does not change. -/
structure Renderer where
  env : Env
  config : Configuration
  sink : Sink
  /-- Whether a compiled text is kept for the next include of its location. -/
  keepsCompiled : Bool

namespace Renderer

open RenderM

def select (r : Renderer) (terms : List Term) (current : List Item) : RenderM (List Item) :=
  evaluate (selectTerms r.env r.config.functions terms current)

def writeLiteral (r : Renderer) (s : String) : RenderM Unit :=
  write r.sink r.config.settings.maxOutputSize ⟨s, false⟩

def substitution (r : Renderer) (s : String) : String :=
  if r.config.settings.escapeHtml then escapeHtml s else s

def writeFirst (r : Renderer) (items : List Item) : RenderM Unit :=
  match items.head?.bind r.env.backend.textOf? with
  | some s => write r.sink r.config.settings.maxOutputSize ⟨r.substitution s, true⟩
  | none => return

def skips (r : Renderer) (item : Item) : Bool :=
  match r.env.backend.reduce item with
  | .scalar .null => true
  | .scalar (.bool false) => true
  | _ => false

/-- The items that the body of a loop is rendered against: a node alone, otherwise those around. -/
def currentIn (current : List Item) : Item → List Item
  | .node a => [.node a]
  | .scalar _ => current

/-- Visits items from position `i` on, and renders a body for each that is not passed over. -/
def each (r : Renderer) (current : List Item) (body : List Item → RenderM Unit) :
    Nat → List Item → RenderM Unit
  | _, [] => return
  | i, item :: items => do
    -- an item that is passed over counts as a visit too
    tick r.config.settings.maxIterations
    if r.skips item then each r current body (i + 1) items
    else do
      setIndex i
      body (currentIn current item)
      each r current body (i + 1) items

/-! ### Parts -/

mutual

/-- Renders a part of a text at `base`; `insert` renders what a call includes. -/
def renderPart (r : Renderer) (insert : IncludeCall → List Item → RenderM Unit)
    (base : Option String) (current : List Item) (p : Part) : RenderM Unit :=
  match p with
  | .text s => r.writeLiteral s
  | .value terms => do
    let items ← r.select terms current
    r.writeFirst items
  | .insertion name => insert ⟨name, base⟩ current
  | .loop subject body => do
    let items ← r.select subject current
    within items (r.each current (fun here => renderParts r insert base here body) 0 items)
  | .choice guard yes no => do
    let items ← r.select guard current
    if firstTruth r.env.backend items then renderParts r insert base current yes
    else renderParts r insert base current no

def renderParts (r : Renderer) (insert : IncludeCall → List Item → RenderM Unit)
    (base : Option String) (current : List Item) (ps : List Part) : RenderM Unit :=
  match ps with
  | [] => return
  | p :: ps => do
    renderPart r insert base current p
    renderParts r insert base current ps

end

/-! ### Includes -/

/-- The parts of an included text: those kept for its location, otherwise those of its content. -/
def partsOf (r : Renderer) (name : String) (found : Included) : RenderM (List Part) := do
  let s ← get
  match s.compiled.lookup found.location with
  | some parts => return parts
  | none =>
    match parseTemplate r.config.functions.signatures found.content with
    | .error e => throw (.included name e)
    | .ok parts =>
      if r.keepsCompiled then set { s with compiled := (found.location, parts) :: s.compiled }
      return parts

/-- Renders what a call includes, where `remaining` includes may still be inside each other. -/
def insertion (r : Renderer) (remaining : Nat) (call : IncludeCall) (current : List Item) :
    RenderM Unit :=
  let bound := r.config.settings.maxIncludeDepth
  match remaining with
  | 0 => throw (.limit .includeDepth bound)
  | remaining + 1 =>
    match r.config.includer with
    | none => throw (.noIncluder call.name)
    | some includer => do
      let found ← ask includer (bound - remaining) call
      let parts ← r.partsOf call.name found
      renderParts r (insertion r remaining) (some found.location) current parts

def renderTop (r : Renderer) (base : Option String) (parts : List Part) : RenderM Unit :=
  renderParts r (r.insertion r.config.settings.maxIncludeDepth) base [.node []] parts

end Renderer
end PathQuery
