import TierCheck.Text.Blank
/-!
# Paths and file trees

A path is a row of names between slashes. Several slashes count as one, a single dot is a step to
the same place, and two dots are a step back.

What stands where on a machine decides whether a file can be written and a program can be launched.
A place is given by the names on the way from the root. Whoever follows a path meets the first
obstacle on it, and that obstacle is the cause of the failure.

* `Path.components`: the steps of a path that lead to another place.
* `Path.fileName?`: the name of the file that the path ends in.
* `FileTree.walk`: the place to which directories lead.
* `FileTree.makeDirectories`: the tree with all directories on a way.
* `FileTree.writeFile`: the tree with a file at a path. Directories on the way are made.
* `FileTree.launchFault?`: why the file at a path cannot be launched as a program.
-/

namespace TierCheck

/-! ## Paths -/

namespace Path

/-- Whether the path starts from the root of the file tree. -/
def isAbsolute (path : String) : Bool := path.toList.head? = some '/'

/-- Whether the path says by a slash at its end that it leads to a directory. -/
def endsInSlash (path : String) : Bool := path.toList.getLast? = some '/'

def steps (path : String) : List String := terms (· = '/') path

/-- The steps of a path without single dots. -/
def components (path : String) : List String := (steps path).filter (· ≠ ".")

/-- The name of the file at a path, if the path ends in one. -/
def fileName? (path : String) : Option String :=
  (components path).getLast?.filter (· ≠ "..")

/-- The path without its last component. -/
def parent (path : String) : String :=
  (if isAbsolute path then "/" else "") ++ "/".intercalate (components path).dropLast

end Path

/-! ## File trees -/

inductive FileKind where
  | file
  /-- A file that can be launched. -/
  | program
  | directory
  /-- A directory in which nothing new can be made. -/
  | sealedDirectory
deriving DecidableEq, Repr

/-- Whether other places can lie behind this one. -/
def FileKind.isDirectory : FileKind → Bool
  | directory | sealedDirectory => true
  | _ => false

inductive FileFault where
  | notFound
  | denied
  | alreadyExists
  | notDirectory
  | isDirectory
  | nameTooLong
deriving DecidableEq, Repr

/-- The obstacle in the words of the machine, with its number there. -/
def FileFault.message : FileFault → String
  | notFound => "No such file or directory (os error 2)"
  | denied => "Permission denied (os error 13)"
  | alreadyExists => "File exists (os error 17)"
  | notDirectory => "Not a directory (os error 20)"
  | isDirectory => "Is a directory (os error 21)"
  | nameTooLong => "File name too long (os error 36)"

structure FileTree where
  /-- What stands at the places other than the root. Of two entries for a place the first one
  counts. -/
  entries : List (List String × FileKind)
  /-- The directory from which relative paths start. -/
  here : List String := []
deriving DecidableEq, Repr

namespace FileTree

/-- The greatest number of bytes in a name. -/
def longestName : Nat := 255

/-- What stands at a place, if anything does. The root is a directory. -/
def at? (t : FileTree) (place : List String) : Option FileKind :=
  if place = [] then some .directory
  else (t.entries.find? fun (other, _) => other = place).map (·.2)

/-- The place from which a path starts. -/
def start (t : FileTree) (path : String) : List String :=
  if Path.isAbsolute path then [] else t.here

/-- The tree with something new at a place. -/
def insert (t : FileTree) (place : List String) (kind : FileKind) : FileTree :=
  { t with entries := (place, kind) :: t.entries }

/-- What stands behind the name in the directory at a place. -/
def lookUp (t : FileTree) (place : List String) (name : String) :
    Except FileFault (Option FileKind) :=
  if longestName < name.utf8ByteSize then .error .nameTooLong else .ok (t.at? (place ++ [name]))

/-- The tree with something new behind the name in the directory at a place. -/
def make (t : FileTree) (place : List String) (name : String) (kind : FileKind) :
    Except FileFault FileTree :=
  if t.at? place = some .sealedDirectory then .error .notFound
  else .ok (t.insert (place ++ [name]) kind)

/-- The place to which the steps lead, all of them through directories. -/
def walk (t : FileTree) (place : List String) : List String → Except FileFault (List String)
  | [] => .ok place
  | name :: rest =>
    if name = "." then t.walk place rest
    else if name = ".." then t.walk place.dropLast rest
    else do
      match ← t.lookUp place name with
      | none => throw .notFound
      | some kind =>
        if kind.isDirectory then t.walk (place ++ [name]) rest else throw .notDirectory

/-- The tree with a directory at every place on the way. A file in the way is only called one if
the way leads on behind it. -/
def makeDirectories (t : FileTree) (place : List String) :
    List String → Except FileFault FileTree
  | [] => .ok t
  | name :: rest =>
    if name = ".." then t.makeDirectories place.dropLast rest
    else do
      match ← t.lookUp place name with
      | none =>
        let made ← t.make place name .directory
        made.makeDirectories (place ++ [name]) rest
      | some kind =>
        if kind.isDirectory then t.makeDirectories (place ++ [name]) rest
        else throw (if rest = [] then .alreadyExists else .notDirectory)

/-- The tree with a file behind the name in the directory at a place. A file that is there already
is written over. -/
def openFile (t : FileTree) (place : List String) (name : String) :
    Except FileFault FileTree := do
  match ← t.lookUp place name with
  | none => t.make place name .file
  | some kind => if kind.isDirectory then throw .isDirectory else return t

/-- The tree with a file at the path and all directories on the way to it. -/
def writeFile (t : FileTree) (path : String) : Except FileFault FileTree := do
  let t ← t.makeDirectories (t.start path) (Path.components path).dropLast
  match (Path.steps path).getLast? with
  | none => throw (if path = "" then .notFound else .isDirectory)
  | some name =>
    let place ← t.walk (t.start path) (Path.steps path).dropLast
    if name = "." ∨ name = ".." ∨ Path.endsInSlash path then throw .isDirectory
    else t.openFile place name

/-- Why the file at a path cannot be launched. -/
def launchFault? (t : FileTree) (path : String) : Option FileFault :=
  let found : Except FileFault FileKind := do
    match (Path.steps path).getLast? with
    | none => if path = "" then throw .notFound else return .directory
    | some name =>
      let place ← t.walk (t.start path) (Path.steps path).dropLast
      if name = "." ∨ name = ".." then return .directory
      match ← t.lookUp place name with
      | none => throw .notFound
      | some kind =>
        if Path.endsInSlash path ∧ !kind.isDirectory then throw .notDirectory else return kind
  match found with
  | .error fault => some fault
  | .ok .program => none
  | .ok _ => some .denied

end FileTree

end TierCheck
