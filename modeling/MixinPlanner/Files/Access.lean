/-
Access to files: what the library asks of a file system, and what can go wrong.

`FileAccess m` names the operations as actions of a monad. What needs several of them is put together here, once for every file
system: making a directory with the ones above it, and replacing a file. The contents of a replaced file appear under its path
complete or not at all: they are written beside it first, under a path that no other file has, and then moved. So a replacement
can fail at the directories above, at the file beside, or at the move, and says at which path it did.
-/
import MixinPlanner.Stream.Facts
import MixinPlanner.Stream.Plans

namespace MixinPlanner

/-- what a file system answers when it cannot do as asked -/
inductive FileError where
  | notFound
  | alreadyExists
  | notDirectory
  | isDirectory
  | busy
  | nameTooLong
  /-- anything else, in the system's words -/
  | other (text : String)
  deriving DecidableEq, Repr, Inhabited

/-- the message of a file error -/
def FileError.message : FileError → String
  | notFound => "No such file or directory (os error 2)"
  | busy => "Device or resource busy (os error 16)"
  | alreadyExists => "File exists (os error 17)"
  | notDirectory => "Not a directory (os error 20)"
  | isDirectory => "Is a directory (os error 21)"
  | nameTooLong => "File name too long (os error 36)"
  | other text => text

/-- a file error with the path at which it arose -/
structure PathError where
  path : String
  error : FileError
  deriving DecidableEq, Repr, Inhabited

/-- the message of an error at a path -/
def PathError.message (e : PathError) : String := e.path ++ ": " ++ e.error.message

/-- what the library asks of a file system -/
structure FileAccess (m : Type → Type) where
  /-- the bytes of a file -/
  read : String → m (Except FileError (List UInt8))
  /-- whether a path leads to a file or a directory -/
  pathExists : String → m Bool
  /-- whether a path leads to a directory -/
  directoryExists : String → m Bool
  /-- a new directory within one that is there -/
  makeDirectory : String → m (Except FileError Unit)
  /-- a text written to a file, which is made if it is not there -/
  write : String → String → m (Except FileError Unit)
  /-- a file moved to another path, in place of a file that is there -/
  move : String → String → m (Except FileError Unit)
  /-- a file removed, if it is there -/
  remove : String → m Unit
  /-- what is added to a path for a file beside it that is not there yet -/
  stamp : m String

/-- the path above a path: without its last step, and without the slashes and dots at its end. A path of one step, or of
none, has nothing above it. -/
def parentPath (path : String) : String :=
  let parts := path.splitOn "/"
  let trailing := parts.reverse.dropWhile fun s => s == "" || s == "."
  let upper := (trailing.drop 1).dropWhile fun s => s == "" || s == "."
  if upper.isEmpty && (trailing.drop 1).contains "." then "." else "/".intercalate upper.reverse

/-- why a file of records cannot be loaded -/
inductive LoadError where
  | file (error : PathError)
  /-- the file holds bytes that no text has -/
  | corrupt (path reason : String)
  | facts (error : Stream.Error)
  | plans (error : PlanStoreError)

/-- what is said of a corrupt file -/
def corruptReport (path reason : String) : String := path ++ ": contains " ++ reason

/-- the message of a load error -/
def LoadError.message : LoadError → String
  | file e => e.message
  | corrupt path reason => "corrupted substrate: " ++ corruptReport path reason
  | facts e => e.message
  | plans e => e.message

/-- the bytes of a file of records, if they are text without NUL -/
def checkText (path : String) (bytes : List UInt8) : Except LoadError (List UInt8) :=
  if bytes.contains 0 then .error (.corrupt path "NUL byte(s)")
  else if (Stream.textOf bytes).isNone then .error (.corrupt path "non-UTF-8 byte sequence(s)")
  else .ok bytes

/-- the configuration in a file's bytes, or why it cannot be loaded -/
def Configuration.ofFile (path : String) : Except FileError (List UInt8) → Except LoadError Configuration
  | .error e => .error (.file ⟨path, e⟩)
  | .ok bytes => do
    match Configuration.read (← checkText path bytes) with
    | .ok c => .ok c
    | .error e => .error (.facts e)

/-- the plans in a file's bytes, or why they cannot be loaded -/
def PlanSet.ofFile (path : String) : Except FileError (List UInt8) → Except LoadError PlanSet
  | .error e => .error (.file ⟨path, e⟩)
  | .ok bytes => do
    match PlanSet.read (← checkText path bytes) with
    | .ok s => .ok s
    | .error e => .error (.plans e)

namespace FileAccess

variable {m : Type → Type} [Monad m]

/-- the result of making a directory. It is no failure if there is one already. -/
def settle (files : FileAccess m) (path : String) : Except FileError Unit → m (Except FileError Unit)
  | .ok () => return .ok ()
  | .error e => return if ← files.directoryExists path then .ok () else .error e

/-- a directory made with the ones above it, up to a number of them -/
def makeWithin (files : FileAccess m) : Nat → String → m (Except FileError Unit)
  | 0, _ => return .ok ()
  | fuel + 1, path => do
    if path.isEmpty then return .ok ()
    match ← files.makeDirectory path with
    | .error .notFound =>
      match ← makeWithin files fuel (parentPath path) with
      | .error e => return .error e
      | .ok () => files.settle path (← files.makeDirectory path)
    | made => files.settle path made

/-- a directory made with the ones above it, unless it is there already -/
def makeDirectories (files : FileAccess m) (path : String) : m (Except FileError Unit) :=
  makeWithin files (path.length + 1) path

/-- a file replaced at once, with the directories above it made as needed. Nothing stays beside it if that fails. -/
def replace (files : FileAccess m) (path contents : String) : m (Except PathError Unit) := do
  let parent := parentPath path
  match ← files.makeDirectories parent with
  | .error e => return .error ⟨parent, e⟩
  | .ok () =>
    let beside := path ++ (← files.stamp)
    match ← files.write beside contents with
    | .error e =>
      files.remove beside
      return .error ⟨beside, e⟩
    | .ok () =>
      match ← files.move beside path with
      | .error e =>
        files.remove beside
        return .error ⟨path, e⟩
      | .ok () => return .ok ()

/-- a configuration loaded from a fact stream -/
def loadFacts (files : FileAccess m) (path : String) : m (Except LoadError Configuration) := do
  return Configuration.ofFile path (← files.read path)

/-- plans loaded from a store -/
def loadPlans (files : FileAccess m) (path : String) : m (Except LoadError PlanSet) := do
  return PlanSet.ofFile path (← files.read path)

end FileAccess

end MixinPlanner
