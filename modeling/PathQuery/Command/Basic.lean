import PathQuery.Command.Arguments
import PathQuery.Settings.Reader
import PathQuery.Template.Basic

/-!
# Commands

A command evaluates expressions and renders a template against one JSON document after another, and
prints what they give. Everything it needs is read before the first result is printed; a failure after
that leaves what has been printed.
-/

namespace PathQuery

/-! ### Failures -/

inductive CommandError where
  | nothingToDo
  | unreadable (failure : ReadFailure)
  | badSettings
  | badDocument
  | expression (error : SyntaxError)
  | template (error : TemplateSyntaxError)
  | eval (error : EvalError)
  | render (error : RenderError)

def CommandError.message : CommandError → String
  | nothingToDo => "nothing to do: pass -e EXPR or -t TEMPLATE"
  | unreadable failure => failure.message
  | badSettings => "malformed settings"
  | badDocument => "malformed JSON"
  | expression error => error.display
  | template error => error.message
  | eval error => error.message
  | render error => error.message

namespace Command

/-! ### Reading -/

/-- What the default configuration becomes for a command. -/
def configuration (c : Command) (files : Files) : Except CommandError Configuration := do
  let given ← match c.settings with
    | none => .ok Settings.default
    | some path => do
      let text ← (files path).mapError .unreadable
      match Settings.read? text with
      | some s => .ok s
      | none => .error .badSettings
  let escaping := if c.escapeHtml then { given with escapeHtml := true } else given
  let settings := match c.maxIterations with
    | some n => { escaping with maxIterations := n }
    | none => escaping
  return Configuration.default.withSettings settings

/-- The directory that includes of a template without a location are taken from. -/
def templateRoot (path : String) : String := (Pathname.parent? path).getD "."

def loadTemplate (config : Configuration) (files : Files) (path : String) :
    Except CommandError Template := do
  let source ← (files path).mapError .unreadable
  let config := config.withIncluder (Includer.ofFiles files (templateRoot path))
  (Template.compile config (some path) source).mapError .template

def readDocument (text : String) : Except CommandError Json.Document :=
  match Json.Document.read? text with
  | some d => .ok d
  | none => .error .badDocument

/-- Reads the inputs in order. A dash stands for the standard input, which can be read once. -/
def readInputs (files : Files) (stdin : String) : List String →
    Except CommandError (List Json.Document)
  | [] => .ok []
  | "-" :: paths => do
    let d ← readDocument stdin
    let ds ← readInputs files "" paths
    return d :: ds
  | path :: paths => do
    let text ← (files path).mapError .unreadable
    let d ← readDocument text
    let ds ← readInputs files stdin paths
    return d :: ds

/-! ### Printing -/

def queryLines (q : Query) (d : Json.Document) : Except CommandError String := do
  let m ← (q.evaluate (.json d)).mapError .eval
  return String.join (m.items.map fun item => ((Root.json d).itemJson item).text ++ "\n")

def templateText (t : Template) (d : Json.Document) : Except CommandError String :=
  (t.render (.json d) .unlimited).text.mapError .render

def printed (queries : List Query) (template : Option Template) (d : Json.Document) :
    List (Except CommandError String) :=
  queries.map (queryLines · d) ++ (template.map (templateText · d)).toList

/-- Texts up to the first failure. -/
def untilFailure : List (Except CommandError String) → String × Option CommandError
  | [] => ("", none)
  | .ok s :: rest =>
    let (after, failure) := untilFailure rest
    (s ++ after, failure)
  | .error e :: _ => ("", some e)

/-- Reads what a command needs, and gives what it prints for each document. -/
def results (c : Command) (files : Files) (stdin : String) :
    Except CommandError (List (Except CommandError String)) := do
  if c.expressions.isEmpty && c.template.isNone then throw .nothingToDo
  let config ← c.configuration files
  let queries ← c.expressions.mapM fun e => (Query.compile config e).mapError .expression
  let template ← match c.template with
    | some path => (loadTemplate config files path).map some
    | none => .ok none
  let documents ← readInputs files stdin (if c.inputs.isEmpty then ["-"] else c.inputs)
  return documents.flatMap (printed queries template)

end Command

/-! ### Outcomes -/

/-- What a run leaves behind. -/
structure Outcome where
  code : Nat
  stdout : String
  stderr : String
  deriving DecidableEq, Repr

namespace Outcome

def report (e : CommandError) : String := "zpath: " ++ e.message ++ "\n"

def ofCommand (c : Command) (files : Files) (stdin : String) : Outcome :=
  match c.results files stdin with
  | .error e => ⟨1, "", report e⟩
  | .ok texts =>
    match Command.untilFailure texts with
    | (out, none) => ⟨0, out, ""⟩
    | (out, some e) => ⟨1, out, report e⟩

def versionText : String := "zpath 0.1.0\n"

def helpText : String := String.join [
  "Evaluate path expressions or render a template against JSON documents\n",
  "\n",
  "Usage: zpath [OPTIONS] [INPUTS]...\n",
  "\n",
  "Arguments:\n",
  "  [INPUTS]...  JSON input files; `-` or none reads stdin\n",
  "\n",
  "Options:\n",
  "  -e, --eval <EXPR>         Expression to evaluate; repeat for several. Results print one JSON value per line\n",
  "  -t, --template <FILE>     Template file to render to stdout\n",
  "  -c, --config <FILE>       JSON file with settings (locale, limits, escaping)\n",
  "      --html                HTML-escape template substitutions\n",
  "      --max-iterations <N>  Maximum number of template loop iterations\n",
  "  -v, --verbose...          Increase log verbosity (-v debug, -vv trace with evaluation steps)\n",
  "  -h, --help                Print help\n",
  "  -V, --version             Print version\n"]

def ofArguments (arguments : List String) (files : Files) (stdin : String) : Outcome :=
  match Request.ofArguments arguments with
  | .error e => ⟨2, "", "error: " ++ e.message ++ "\n\nFor more information, try '--help'.\n"⟩
  | .ok .help => ⟨0, helpText, ""⟩
  | .ok .version => ⟨0, versionText, ""⟩
  | .ok (.run c) => ofCommand c files stdin

end Outcome
end PathQuery
