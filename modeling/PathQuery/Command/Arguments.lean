import PathQuery.Number.Decimal

/-!
# Command line arguments

Arguments are read from left to right: options in long and short form, some with a value, and the
paths of inputs between them. A value follows its option, or is attached to it; after two dashes
everything is an input. The first argument at fault, or that asks for help or the version, decides.
-/

namespace PathQuery

/-- What a run is asked to do. -/
structure Command where
  /-- Expressions to evaluate against each input. -/
  expressions : List String
  template : Option String
  settings : Option String
  escapeHtml : Bool
  maxIterations : Option Nat
  verbosity : Nat
  inputs : List String
  deriving DecidableEq, Repr

def Command.empty : Command := ⟨[], none, none, false, none, 0, []⟩

inductive Request where
  | run (c : Command)
  | help
  | version
  deriving DecidableEq, Repr

namespace Arguments

/-! ### Options -/

inductive Flag where
  | escapeHtml
  | verbose
  | help
  | version
  deriving DecidableEq, Repr

/-- Options that take a value. -/
inductive Valued where
  | expression
  | template
  | settings
  | maxIterations
  deriving DecidableEq, Repr

def Flag.name : Flag → String
  | escapeHtml => "html"
  | verbose => "verbose"
  | help => "help"
  | version => "version"

def Flag.letter? : Flag → Option Char
  | escapeHtml => none
  | verbose => some 'v'
  | help => some 'h'
  | version => some 'V'

def Valued.name : Valued → String
  | expression => "eval"
  | template => "template"
  | settings => "config"
  | maxIterations => "max-iterations"

def Valued.letter? : Valued → Option Char
  | expression => some 'e'
  | template => some 't'
  | settings => some 'c'
  | maxIterations => none

/-- An option of either kind. -/
inductive Name where
  | flag (f : Flag)
  | valued (v : Valued)
  deriving DecidableEq, Repr

def Name.all : List Name :=
  [.valued .expression, .valued .template, .valued .settings, .flag .escapeHtml,
   .valued .maxIterations, .flag .verbose, .flag .help, .flag .version]

def Name.text : Name → String
  | flag f => f.name
  | valued v => v.name

def Name.letter? : Name → Option Char
  | flag f => f.letter?
  | valued v => v.letter?

def Name.ofText? (text : String) : Option Name := all.find? fun n => n.text = text

def Name.ofLetter? (letter : Char) : Option Name := all.find? fun n => n.letter? = some letter

/-! ### Faults -/

inductive UsageError where
  | unknown (option : String)
  | missingValue (option : String)
  | unexpectedValue (option : String)
  | repeated (option : String)
  | invalidValue (option value : String)
  | emptyInput
  deriving DecidableEq, Repr

def UsageError.message : UsageError → String
  | unknown option => "unexpected argument '" ++ option ++ "' found"
  | missingValue option => "a value is required for '--" ++ option ++ "' but none was supplied"
  | unexpectedValue option => "unexpected value for '--" ++ option ++ "' found; no more were expected"
  | repeated option => "the argument '--" ++ option ++ "' cannot be used multiple times"
  | invalidValue option value => "invalid value '" ++ value ++ "' for '--" ++ option ++ "'"
  | emptyInput => "a value is required for '[INPUTS]...' but none was supplied"

/-! ### Single arguments -/

/-- A number of 64 bits without a sign, perhaps with a plus before it. -/
def count? (cs : List Char) : Option Nat :=
  let ds := match cs with
    | '+' :: rest => rest
    | rest => rest
  if ds.isEmpty || !ds.all Char.isDigit then none
  else
    let n := Decimal.digitsValue ds
    if n < UInt64.size then some n else none

/-- Sets a path that may be given once. -/
def setPath (option : Valued) (value : String) (old : Option String) :
    Except UsageError (Option String) :=
  if old.isSome then .error (.repeated option.name)
  else if value.isEmpty then .error (.invalidValue option.name value)
  else .ok (some value)

def setValue (c : Command) (value : String) : Valued → Except UsageError Command
  | .expression => .ok { c with expressions := c.expressions ++ [value] }
  | .template => (setPath .template value c.template).map fun p => { c with template := p }
  | .settings => (setPath .settings value c.settings).map fun p => { c with settings := p }
  | .maxIterations =>
    if c.maxIterations.isSome then .error (.repeated Valued.maxIterations.name)
    else
      match count? value.toList with
      | some n => .ok { c with maxIterations := some n }
      | none => .error (.invalidValue Valued.maxIterations.name value)

def addInput (c : Command) (path : String) : Except UsageError Command :=
  if path.isEmpty then .error .emptyInput else .ok { c with inputs := c.inputs ++ [path] }

/-- How far an argument has led. -/
inductive Reading where
  | done (c : Command)
  /-- The next argument is the value of an option. -/
  | awaits (option : Valued) (c : Command)
  /-- What is asked for does not depend on further arguments. -/
  | decided (r : Request)

def setFlag (c : Command) : Flag → Except UsageError Reading
  | .escapeHtml =>
    if c.escapeHtml then .error (.repeated Flag.escapeHtml.name)
    else .ok (.done { c with escapeHtml := true })
  | .verbose => .ok (.done { c with verbosity := c.verbosity + 1 })
  | .help => .ok (.decided .help)
  | .version => .ok (.decided .version)

def readLong (c : Command) (body : List Char) : Except UsageError Reading :=
  let name := String.ofList (body.takeWhile (· != '='))
  let value? := match body.dropWhile (· != '=') with
    | _ :: value => some (String.ofList value)
    | [] => none
  match Name.ofText? name, value? with
  | none, _ => .error (.unknown ("--" ++ name))
  | some (.flag f), none => setFlag c f
  | some (.flag f), some _ => .error (.unexpectedValue f.name)
  | some (.valued v), none => .ok (.awaits v c)
  | some (.valued v), some value => (setValue c value v).map .done

/-- Reads options in short form, without their dash. The rest after one that takes a value is the
value, with or without an equals sign before it. -/
def readShort (c : Command) : List Char → Except UsageError Reading
  | [] => .ok (.done c)
  | letter :: rest =>
    match Name.ofLetter? letter with
    | none => .error (.unknown ("-" ++ letter.toString))
    | some (.valued v) =>
      match rest with
      | [] => .ok (.awaits v c)
      | '=' :: value => (setValue c (String.ofList value) v).map .done
      | value => (setValue c (String.ofList value) v).map .done
    | some (.flag f) =>
      match setFlag c f with
      | .ok (.done changed) => readShort changed rest
      | other => other

def readOne (c : Command) (argument : String) : Except UsageError Reading :=
  match argument.toList with
  | '-' :: '-' :: body => readLong c body
  | '-' :: c1 :: body => readShort c (c1 :: body)
  | _ => (addInput c argument).map .done

/-! ### All arguments -/

/-- Whether an argument begins like an option; a dash alone does not. -/
def isOptionLike (argument : String) : Bool :=
  match argument.toList with
  | '-' :: _ :: _ => true
  | _ => false

def readInputs (c : Command) : List String → Except UsageError Request
  | [] => .ok (.run c)
  | path :: paths => do
    let changed ← addInput c path
    readInputs changed paths

def readAll (c : Command) : List String → Except UsageError Request
  | [] => .ok (.run c)
  | "--" :: arguments => readInputs c arguments
  | argument :: arguments =>
    match readOne c argument with
    | .error e => .error e
    | .ok (.decided r) => .ok r
    | .ok (.done changed) => readAll changed arguments
    | .ok (.awaits option changed) =>
      match arguments with
      | [] => .error (.missingValue option.name)
      | value :: rest =>
        if isOptionLike value then .error (.missingValue option.name)
        else do
          let changed ← setValue changed value option
          readAll changed rest

end Arguments

/-- What the arguments of a command line ask for. -/
def Request.ofArguments (arguments : List String) : Except Arguments.UsageError Request :=
  Arguments.readAll .empty arguments

end PathQuery
