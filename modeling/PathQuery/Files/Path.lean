/-!
# Paths of files

A path is a text in which slashes stand between names. It is absolute if it begins with a slash, and
otherwise relative to some directory.
-/

namespace PathQuery

/-! ### Names in a path -/

/-- The texts between slashes, one more than there are slashes. -/
def betweenSlashes : List Char → List (List Char)
  | [] => [[]]
  | c :: cs =>
    match betweenSlashes cs with
    | [] => [[c]]
    | n :: ns => if c = '/' then [] :: n :: ns else (c :: n) :: ns

namespace Pathname

def names (path : String) : List String := (betweenSlashes path.toList).map String.ofList

def isAbsolute (path : String) : Bool := path.toList.head? == some '/'

def isIdle (name : String) : Bool := name.isEmpty || name = "."

/-- The names that matter: without idle ones, except for a dot that a relative path begins with. -/
def steps (path : String) : List String :=
  match names path with
  | [] => []
  | first :: rest =>
    let later := rest.filter fun n => !isIdle n
    if first.isEmpty then later else first :: later

def ofSteps (absolute : Bool) (steps : List String) : String :=
  (if absolute then "/" else "") ++ String.intercalate "/" steps

/-- The directory a path lies in, perhaps the empty text; `none` for a path without steps. -/
def parent? (path : String) : Option String :=
  match steps path with
  | [] => none
  | s :: ss => some (ofSteps (isAbsolute path) (s :: ss).dropLast)

/-- A path taken from a directory; an absolute one stays as it is. -/
def join (dir path : String) : String :=
  if isAbsolute path || dir.isEmpty then path
  else if dir.toList.getLast? == some '/' then dir ++ path
  else dir ++ "/" ++ path

end Pathname

/-! ### Reading -/

inductive ReadFailure where
  | notFound
  | notADirectory
  | isADirectory
  | nameTooLong
  /-- The path has a character that no path can have. -/
  | badName
  | other (message : String)
  deriving DecidableEq, Repr

def ReadFailure.message : ReadFailure → String
  | notFound => "No such file or directory (os error 2)"
  | notADirectory => "Not a directory (os error 20)"
  | isADirectory => "Is a directory (os error 21)"
  | nameTooLong => "File name too long (os error 36)"
  | badName => "file name contained an unexpected NUL byte"
  | other message => message

abbrev Files := String → Except ReadFailure String

end PathQuery
