/-
A file system as a value: places, each a file with its bytes or a directory.

A path names its steps from the top directory, or from the root if it begins with a slash. The step `.` stays where it is and
`..` goes one up; at the top it leads out, to a directory of which nothing is known but what was put there. Every step has to
start in a directory, and the name of a step has a greatest length. A path that ends in a slash asks for a directory.
-/
import MixinPlanner.Files.Access

namespace MixinPlanner

/-- a file with its bytes, or a directory -/
inductive FileNode where
  | file (bytes : List UInt8)
  | directory
  deriving DecidableEq

/-- the steps from the top directory, or from the root -/
abbrev Place : Type := List String

/-- what stands at places -/
abbrev FileTree : Type := SortedTable Place FileNode

namespace FileTree

/-- the bytes of the longest name that a file or directory may have -/
def maxName : Nat := 255

/-- the bytes of the longest path -/
def maxPath : Nat := 4095

/-- the place of the root -/
def root : Place := ["/"]

/-- whether a place is the root, the top directory or above that -/
def isFixed (place : Place) : Bool := place == root || place.all (· == "..")

/-- the place one up -/
def above (place : Place) : Place :=
  if place = root then root else if isFixed place then place ++ [".."] else place.dropLast

/-- the names along a path -/
def names (path : String) : List String := (path.splitOn "/").filter (· ≠ "")

/-- whether a path asks for a directory by how it ends -/
def endsInSlash (path : String) : Bool := path.endsWith "/"

/-- what stands at a place -/
def node? (t : FileTree) (place : Place) : Option FileNode :=
  if isFixed place then some .directory else t.get? place

/-- the place that a name leads to from another -/
def step (t : FileTree) (place : Place) (name : String) : Except FileError Place :=
  match t.node? place with
  | none => .error .notFound
  | some (.file _) => .error .notDirectory
  | some .directory =>
    if name = "." then .ok place
    else if name = ".." then .ok (above place)
    else if maxName < name.utf8ByteSize then .error .nameTooLong
    else .ok (place ++ [name])

/-- the place of a path, whether or not anything stands there -/
def place (t : FileTree) (path : String) : Except FileError Place :=
  if path.isEmpty then .error .notFound
  else if path.contains '\x00' then .error (.other "file name contained an unexpected NUL byte")
  else if maxPath < path.utf8ByteSize then .error .nameTooLong
  else (names path).foldlM t.step (if path.startsWith "/" then root else [])

/-- what stands at a path -/
def find (t : FileTree) (path : String) : Except FileError FileNode := do
  match t.node? (← t.place path) with
  | none => throw .notFound
  | some .directory => return .directory
  | some (.file bytes) => if endsInSlash path then throw .notDirectory else return .file bytes

/-- the bytes of a file -/
def read (t : FileTree) (path : String) : Except FileError (List UInt8) := do
  match ← t.find path with
  | .file bytes => return bytes
  | .directory => throw .isDirectory

/-- whether a path leads anywhere -/
def pathExists (t : FileTree) (path : String) : Bool := (t.find path).isOk

/-- whether a path leads to a directory -/
def directoryExists (t : FileTree) (path : String) : Bool :=
  match t.find path with
  | .ok .directory => true
  | _ => false

/-- a directory made at a path -/
def makeDirectory (t : FileTree) (path : String) : Except FileError FileTree := do
  let place ← t.place path
  match t.node? place with
  | some _ => throw .alreadyExists
  | none => return t.insert (place, .directory)

/-- a file written at a path -/
def writeFile (t : FileTree) (path : String) (bytes : List UInt8) : Except FileError FileTree := do
  let place ← t.place path
  if endsInSlash path then throw .isDirectory
  match t.node? place with
  | some .directory => throw .isDirectory
  | _ => return t.insert (place, .file bytes)

/-- a file moved from a path to another. The path it goes to has to end in a name of its own. -/
def move (t : FileTree) (source target : String) : Except FileError FileTree := do
  let sourcePlace ← t.place source
  let targetPlace ← t.place target
  match (names target).getLast? with
  | none | some "." | some ".." => throw .busy
  | some _ =>
    let bytes ← t.read source
    if endsInSlash target then throw .notDirectory
    match t.node? targetPlace with
    | some .directory => throw .isDirectory
    | _ => return (t.erase sourcePlace).insert (targetPlace, .file bytes)

/-- a file removed, if it is there -/
def remove (t : FileTree) (path : String) : FileTree :=
  match t.place path, t.read path with
  | .ok place, .ok _ => t.erase place
  | _, _ => t

/-- what stands below the top directory, as paths in order; a directory's path ends in a slash -/
def listing (t : FileTree) : List String :=
  let inside := t.toList.filter fun e => e.1.head? != root.head? && e.1.head? != some ".."
  (SortedBy.ofList (inside.map fun e =>
    "/".intercalate e.1 ++ match e.2 with
      | .file _ => ""
      | .directory => "/") : SortedSet String).toList

/-- a change as an action on the tree: it is made as a whole or not at all -/
def apply (change : FileTree → Except FileError FileTree) : StateM FileTree (Except FileError Unit) := fun t =>
  match change t with
  | .ok t => (.ok (), t)
  | .error e => (.error e, t)

/-- what is added to a path for the file beside it. No other file has it in its name. -/
def stamp : String := ".tmp.1000.1000000000000000000"

/-- access to a tree as the state of a computation -/
def access : FileAccess (StateM FileTree) where
  read path := fun t => (t.read path, t)
  pathExists path := fun t => (t.pathExists path, t)
  directoryExists path := fun t => (t.directoryExists path, t)
  makeDirectory path := apply (makeDirectory · path)
  write path contents := apply (writeFile · path (utf8 contents))
  move source target := apply (move · source target)
  remove path := fun t => ((), t.remove path)
  stamp := pure stamp

end FileTree

end MixinPlanner
