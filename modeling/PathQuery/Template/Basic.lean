import PathQuery.Template.Render

/-!
# Templates

A template is compiled once, under a configuration and perhaps at a location, and rendered against any
number of roots, each time from a fresh state.
-/

namespace PathQuery

structure Template where
  /-- Where it was read from; its includes are resolved there. -/
  location : Option String
  parts : List Part
  config : Configuration

/-- The outcome of a rendering, with the state it was left in. -/
structure Rendering where
  outcome : Except RenderError Unit
  state : RenderState

/-- All that was written, also before a failure. -/
def Rendering.output (r : Rendering) : String := r.state.output

def Rendering.text (r : Rendering) : Except RenderError String := r.outcome.map fun _ => r.output

namespace Template

def compile (config : Configuration) (location : Option String) (source : String) :
    Except TemplateSyntaxError Template := do
  let parts ← parseTemplate config.functions.signatures source
  return ⟨location, parts, config⟩

def withLocale (t : Template) (locale : String) : Template :=
  { t with config := t.config.withLocale locale }

/-- Renders against a root that some opener of the configuration accepts. -/
def render (t : Template) (root : Root) (sink : Sink) : Rendering :=
  match t.config.open? root with
  | .error e => ⟨.error (.eval e), .initial⟩
  | .ok env =>
    let r : Renderer := ⟨env, t.config, sink, true⟩
    let (outcome, state) := (r.renderTop t.location t.parts).runFrom .initial
    ⟨outcome, state⟩

end Template
end PathQuery
