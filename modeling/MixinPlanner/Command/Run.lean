/-
Running a command: what it reads and writes, what it prints, and the code it ends with.

A command ends with 0 if all is well, with 1 if a target failed or a stored plan has drifted, and with 2 if its input cannot
be used or its plans cannot be stored; then nothing is on the standard output and the reason is on the standard error.
Settings are read before facts, and plans are stored before anything is printed. How the targets are resolved between the two
is left open: `runWith` takes a way to resolve a batch, and `run` resolves one target after the other.
-/
import MixinPlanner.Command.Arguments
import MixinPlanner.Command.Report
import MixinPlanner.Files.Settings

namespace MixinPlanner

/-- what a command leaves when it ends -/
structure Finish where
  code : UInt32
  out : String
  err : String
  deriving DecidableEq, Repr, Inhabited

namespace Finish

/-- the end of a command that found its input unusable -/
def unusable (reason : String) : Finish := ⟨2, "", "error: " ++ reason ++ "\n"⟩

/-- the end of a command with a report -/
def report (ok : Bool) (text : String) : Finish := ⟨if ok then 0 else 1, text, ""⟩

/-- the end of a command that was carried out, or found its input unusable -/
def ofResult : Except String Finish → Finish
  | .ok finish => finish
  | .error reason => unusable reason

end Finish

namespace Command

/-- the configuration that a command resolves: all targets, or the one it asks for -/
def select (command : Command) (c : Configuration) : Except String Configuration :=
  match command.task with
  | .resolve (some text) _ =>
    match TypeRef.parse text with
    | .error e => .error ("invalid target " ++ Text.quoted text ++ ": " ++ e.message)
    | .ok target =>
      if c.targets.contains target then .ok (c.restrict target)
      else .error ("no facts for target " ++ target.text ++ " in " ++ command.facts)
  | _ => .ok c

variable {m : Type → Type} [Monad m]

/-- the settings that a command uses: from the path it names, or from the default one if a file is there -/
def settings (command : Command) (files : FileAccess m) : ExceptT String m Settings := do
  let (path, loaded) ←
    match command.config with
    | some path => pure (path, ← files.loadSettings path)
    | none => pure (Settings.defaultPath, ← files.loadSettingsIfThere Settings.defaultPath)
  match loaded with
  | .ok settings => return settings
  | .error e => throw (e.message path)

/-- the configuration in the facts of a command -/
def configuration (command : Command) (files : FileAccess m) : ExceptT String m Configuration := do
  unless ← files.pathExists command.facts do throw ("facts file not found: " ++ command.facts)
  match ← files.loadFacts command.facts with
  | .ok c => return c
  | .error e => throw ("failed to load " ++ command.facts ++ ": " ++ e.message)

/-- the plans stored at a path -/
def storedPlans (files : FileAccess m) (path : String) : ExceptT String m PlanSet := do
  match ← files.loadPlans path with
  | .ok s => return s
  | .error e => throw ("failed to load " ++ path ++ ": " ++ e.message)

/-- a result in which a conflict of plans makes the input unusable -/
def noConflict {α : Type} : Except PlanConflict α → ExceptT String m α
  | .ok a => pure a
  | .error k => throw k.message

/-- the plans of a report collected and stored at a path -/
def store (files : FileAccess m) (path : String) (report : BatchReport) : ExceptT String m Unit := do
  let (collected, plans) := report.giveAll PlanSet.collect .empty
  let _ ← noConflict collected
  match ← files.replace path plans.write with
  | .ok () => return ()
  | .error e => throw ("failed to write " ++ path ++ ": " ++ e.message)

/-- the settings of a command, and the configuration that it resolves under them -/
def load (command : Command) (files : FileAccess m) : ExceptT String m (Settings × Configuration) := do
  let settings ← command.settings files
  let all ← command.configuration files
  let c ← command.select all
  return (settings, c)

/-- what a command makes of the report on its batch -/
def conclude (command : Command) (files : FileAccess m) (resolved : BatchReport) : ExceptT String m Finish := do
  match command.task with
  | .resolve _ out =>
    match out with
    | some path => store files path resolved
    | none => pure ()
    return .report resolved.accepted
      (if command.json then Report.ofJson resolved.toJson else Report.resolveText resolved)
  | .check =>
    return .report resolved.accepted
      (if command.json then Report.ofJson (Report.checkJson command.facts resolved) else Report.checkText resolved)
  | .verifyPlans path =>
    let stored ← storedPlans files path
    let fresh ← noConflict resolved.planSet
    let drift := stored.drift fresh (resolved.unresolved fresh)
    return .report drift.isEmpty
      (if command.json then Report.ofJson (Report.verifyJson command.facts path stored fresh drift)
      else Report.verifyText stored fresh drift)

/-- a command carried out, or why its input cannot be used -/
def perform (batch : Settings → Configuration → BatchReport) (command : Command) (files : FileAccess m) :
    ExceptT String m Finish := do
  let (settings, c) ← command.load files
  command.conclude files (batch settings c)

/-- a command run to its end, with a way to resolve its batch -/
def runWith (batch : Settings → Configuration → BatchReport) (command : Command) (files : FileAccess m) : m Finish :=
  Finish.ofResult <$> (command.perform batch files).run

/-- a command run to its end, with its targets resolved one after the other -/
def run (command : Command) (files : FileAccess m) : m Finish :=
  command.runWith (fun settings c => (c.resolve settings SortedBy.empty).1) files

end Command

end MixinPlanner
