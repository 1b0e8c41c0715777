import PathQuery.Files.Path

/-!
# Trees of files

A tree of files held in memory. A directory is there if it leads to one given, or to some file. Paths
are followed name by name from a working directory, and every name but the last has to be that of a
directory.
-/

namespace PathQuery

/-- Files by the names that lead to them from the top. -/
structure FileTree where
  /-- A directory that is there even without files. -/
  base : List String
  files : List (List String × String)

namespace FileTree

def ofDirectory (dir : List String) (files : List (String × String)) : FileTree :=
  ⟨dir, files.map fun f => (dir ++ Pathname.steps f.1, f.2)⟩

def content? (t : FileTree) (at_ : List String) : Option String := t.files.lookup at_

def isDirectory (t : FileTree) (at_ : List String) : Bool :=
  at_.isPrefixOf t.base ||
    t.files.any fun f => decide (at_.length < f.1.length) && at_.isPrefixOf f.1

/-- The longest name a file may have, in bytes. -/
def maxNameSize : Nat := 255

/-- The longest path, in bytes. -/
def maxPathSize : Nat := 4095

def follow (t : FileTree) (here : List String) : List String → Except ReadFailure (List String)
  | [] => .ok here
  | name :: names =>
    if !t.isDirectory here then .error .notADirectory
    else if Pathname.isIdle name then t.follow here names
    else if name = ".." then t.follow here.dropLast names
    else if maxNameSize < name.utf8ByteSize then .error .nameTooLong
    else
      let next := here ++ [name]
      if t.isDirectory next || (t.content? next).isSome then t.follow next names
      else .error .notFound

def read (t : FileTree) (workingDirectory : List String) : Files := fun path =>
  if path.toList.contains '\x00' then .error .badName
  else if path.isEmpty then .error .notFound
  else if maxPathSize < path.utf8ByteSize then .error .nameTooLong
  else do
    let found ← t.follow (if Pathname.isAbsolute path then [] else workingDirectory)
      (Pathname.names path)
    match t.content? found with
    | some content => return content
    | none => throw .isADirectory

end FileTree
end PathQuery
