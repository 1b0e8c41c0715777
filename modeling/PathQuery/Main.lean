import PathQuery.Command.Basic

/-!
# The command line program

Reads the files that a command line names, and those that its template can include, and prints the
outcome of the command over them.
-/

namespace PathQuery

def ReadFailure.ofError : IO.Error → ReadFailure
  | .noFileOrDirectory _ _ _ => .notFound
  | e =>
    let text := toString e
    if (text.splitOn "ot a directory").length > 1 then .notADirectory
    else if (text.splitOn "s a directory").length > 1 then .isADirectory
    else .other text

/-- Files with what reading them has given. -/
abbrev KnownFiles := List (String × Except ReadFailure String)

def KnownFiles.add (known : KnownFiles) (path : String) : IO KnownFiles := do
  if (known.lookup path).isSome then return known
  let reading ← try Except.ok <$> IO.FS.readFile path
    catch e => pure (.error (ReadFailure.ofError e))
  return (path, reading) :: known

/-- Files by what is known; an unknown one is not there. -/
def KnownFiles.files (known : KnownFiles) : Files := fun path =>
  (known.lookup path).getD (.error .notFound)

def KnownFiles.includedBy (known : KnownFiles) (config : Configuration) (root path : String) :
    List String :=
  match known.files path with
  | .error _ => []
  | .ok source =>
    match parseTemplate config.functions.signatures source with
    | .error _ => []
    | .ok parts => (insertionsOf parts).map fun name =>
      Pathname.join (Includer.directoryOf root (some path)) name

/-- Adds what the templates at some paths include, what that includes, and so on up to a depth. -/
def KnownFiles.addIncludes (config : Configuration) (root : String) :
    Nat → List String → KnownFiles → IO KnownFiles
  | 0, _, known => return known
  | _, [], known => return known
  | depth + 1, paths, known => do
    let included := paths.flatMap (known.includedBy config root)
    let new := included.eraseDups.filter fun path => (known.lookup path).isNone
    let all ← new.foldlM KnownFiles.add known
    addIncludes config root depth new all

/-- Reads all that a command may need. -/
def KnownFiles.ofCommand (c : Command) : IO KnownFiles := do
  let named := c.settings.toList ++ c.template.toList ++ c.inputs.filter (· != "-")
  let mut known : KnownFiles := []
  for path in named do
    known ← known.add path
  match c.template, c.configuration known.files with
  | some path, .ok config =>
    known.addIncludes config (Command.templateRoot path) config.settings.maxIncludeDepth [path]
  | _, _ => return known

def Command.readsStdin (c : Command) : Bool := c.inputs.isEmpty || c.inputs.contains "-"

end PathQuery

open PathQuery in
def main (arguments : List String) : IO UInt32 := do
  let (known, stdin) ← match Request.ofArguments arguments with
    | .ok (.run c) => do
      let known ← KnownFiles.ofCommand c
      let stdin ← if c.readsStdin then (← IO.getStdin).readToEnd else pure ""
      pure (known, stdin)
    | _ => pure ([], "")
  let outcome := Outcome.ofArguments arguments known.files stdin
  IO.print outcome.stdout
  IO.eprint outcome.stderr
  return outcome.code.toUInt32
