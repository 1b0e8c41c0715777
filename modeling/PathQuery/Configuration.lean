import PathQuery.Eval.Builtin
import PathQuery.Template.Includer
import PathQuery.Tree.Root

/-!
# Configurations

Everything that compiling and evaluating consult: the openers of roots, the functions, the settings,
whether evaluations are traced, and the includer of templates. A configuration is a value; a changed
one leaves the one it was made from as it is.
-/

namespace PathQuery

/-- What compiling and evaluating consult. -/
structure Configuration where
  openers : List Opener
  functions : Registry
  settings : Settings
  traced : Bool
  includer : Option Includer

namespace Configuration

/-- JSON documents, the built-in functions and the default settings; no trace and no includer. -/
def default : Configuration := ⟨[.json], .builtins, .default, false, none⟩

instance : Inhabited Configuration := ⟨default⟩

/-- Asks another opener after those there are. -/
def withOpener (c : Configuration) (o : Opener) : Configuration :=
  { c with openers := c.openers ++ [o] }

/-- Asks another opener before those there are. -/
def withPreferredOpener (c : Configuration) (o : Opener) : Configuration :=
  { c with openers := o :: c.openers }

def withFunction (c : Configuration) (f : Function) : Configuration :=
  { c with functions := c.functions.register f }

def withFunctions (c : Configuration) (r : Registry) : Configuration := { c with functions := r }

def withSettings (c : Configuration) (s : Settings) : Configuration := { c with settings := s }

def withLocale (c : Configuration) (locale : String) : Configuration :=
  { c with settings := { c.settings with locale := locale } }

/-- Changes the tolerance to a magnitude. -/
def withTolerance (c : Configuration) (tolerance : Float) : Configuration :=
  { c with settings := { c.settings with tolerance := tolerance.abs } }

def withStrict (c : Configuration) (strict : Bool) : Configuration :=
  { c with settings := { c.settings with strict := strict } }

def withEscapeHtml (c : Configuration) (escape : Bool) : Configuration :=
  { c with settings := { c.settings with escapeHtml := escape } }

def withMaxIncludeDepth (c : Configuration) (n : Nat) : Configuration :=
  { c with settings := { c.settings with maxIncludeDepth := n } }

def withMaxIterations (c : Configuration) (n : Nat) : Configuration :=
  { c with settings := { c.settings with maxIterations := n } }

def withMaxOutputSize (c : Configuration) (n : Nat) : Configuration :=
  { c with settings := { c.settings with maxOutputSize := n } }

def withTrace (c : Configuration) : Configuration := { c with traced := true }

def withIncluder (c : Configuration) (includer : Includer) : Configuration :=
  { c with includer := some includer }

/-- What an evaluation over a backend consults. -/
def env (c : Configuration) (b : Backend) : Env := ⟨b, c.settings, c.traced⟩

/-- What an evaluation from a root consults, if some opener accepts the root. -/
def open? (c : Configuration) (root : Root) : Except EvalError Env :=
  match openRoot? c.openers root with
  | some b => .ok (c.env b)
  | none => .error .noBackend

end Configuration
end PathQuery
