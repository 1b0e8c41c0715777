import PathQuery.Files.Path

/-!
# Includers

A template includes others by name. An includer is asked with the name and the location of the text
that includes it, and answers with a text and its location, or with a failure. It may answer from all
the calls made so far, as a store that changes between them would.
-/

namespace PathQuery

/-- A question to an includer: a name, and the location of the text it stands in. -/
structure IncludeCall where
  name : String
  base : Option String
  deriving DecidableEq, Repr

structure Included where
  location : String
  content : String
  deriving DecidableEq, Repr

inductive IncludeFailure where
  /-- A store of templates has none of this name. -/
  | noTemplate (name : String)
  | file (failure : ReadFailure)
  /-- An includer of another kind gives a text of its own. -/
  | other (message : String)
  deriving DecidableEq, Repr

def IncludeFailure.message : IncludeFailure → String
  | noTemplate name => "no template named `" ++ name ++ "`"
  | file failure => failure.message
  | other message => message

/-- Answers a call, given the calls before it, the latest first. -/
abbrev Includer := List IncludeCall → IncludeCall → Except IncludeFailure Included

namespace Includer

def ofFunction (f : IncludeCall → Except IncludeFailure Included) : Includer := fun _ call => f call

/-- Texts by name; the name is the location. -/
def ofTexts (texts : List (String × String)) : Includer := ofFunction fun call =>
  match texts.lookup call.name with
  | some content => .ok ⟨call.name, content⟩
  | none => .error (.noTemplate call.name)

/-- The directory that names in a text at `base` are taken from: the one the text lies in, or `root`
if that is not known. -/
def directoryOf (root : String) (base : Option String) : String :=
  ((base.bind Pathname.parent?).filter fun dir => !dir.isEmpty).getD root

/-- Files by path; the path is the location. -/
def ofFiles (files : Files) (root : String) : Includer := ofFunction fun call =>
  let path := Pathname.join (directoryOf root call.base) call.name
  match files path with
  | .ok content => .ok ⟨path, content⟩
  | .error failure => .error (.file failure)

end Includer
end PathQuery
