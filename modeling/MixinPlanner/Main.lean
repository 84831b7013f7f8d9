/-
The program: the command line, run on the files of the system.
-/
import MixinPlanner.Command.Run

namespace MixinPlanner

/-- the number of a system error. Some operations give it with the opposite sign, as a word of 32 bits. -/
def systemCode (code : UInt32) : Nat :=
  if code < 0x80000000 then code.toNat else (0 - code).toNat

/-- a system error in the words of the library -/
def FileError.ofSystem : IO.Error → FileError
  | .noFileOrDirectory .. => .notFound
  | .alreadyExists .. => .alreadyExists
  | .resourceBusy .. => .busy
  | .permissionDenied _ code _ => .other ("Permission denied (os error " ++ toString (systemCode code) ++ ")")
  | e@(.inappropriateType _ code _) | e@(.invalidArgument _ code _) =>
    match systemCode code with
    | 20 => .notDirectory
    | 21 => .isDirectory
    | 36 => .nameTooLong
    | _ => .other (toString e)
  | e => .other (toString e)

/-- an action with its error as a value -/
def attempt {α : Type} (act : IO α) : IO (Except FileError α) := do
  return (← act.toBaseIO).mapError .ofSystem

/-- access to the files of the system -/
def systemFiles : FileAccess IO where
  read path := attempt do return (← IO.FS.readBinFile path).toList
  pathExists path := do
    try (← IO.FS.realPath path).pathExists catch _ => return false
  directoryExists path := do
    try (← IO.FS.realPath path).isDir catch _ => return false
  makeDirectory path := attempt (IO.FS.createDir path)
  write path contents := attempt (IO.FS.writeFile path contents)
  move source target := attempt (IO.FS.rename source target)
  remove path := do let _ ← (IO.FS.removeFile path).toBaseIO
  stamp := return ".tmp." ++ toString (← IO.monoNanosNow)

end MixinPlanner

open MixinPlanner

/-- runs the command line that the arguments give -/
def main (args : List String) : IO UInt32 := do
  match Request.ofArguments args with
  | .help => IO.print usage; return 0
  | .version => IO.print versionLine; return 0
  | .misuse => IO.eprint usage; return 2
  | .run command =>
    let finish ← command.run systemFiles
    IO.print finish.out
    IO.eprint finish.err
    return finish.code
