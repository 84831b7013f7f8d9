/-
Settings loaded from TOML files.
-/
import MixinPlanner.Files.Access
import MixinPlanner.Toml.Reader
import MixinPlanner.Wire.Settings

namespace MixinPlanner

/-- why settings cannot be loaded -/
inductive SettingsError where
  | file (error : FileError)
  | notToml
  | fault (fault : Wire.Fault)

/-- the message of an error in the settings at a path -/
def SettingsError.message (path : String) : SettingsError → String
  | file e => "failed to read config: " ++ path ++ ": " ++ e.message
  | notToml | fault _ => "invalid toml at " ++ path

/-- the settings that a text writes -/
def Settings.ofToml (text : String) : Except SettingsError Settings :=
  match Toml.read text with
  | none => .error .notToml
  | some r => (Settings.decode .table r).mapError .fault

/-- the settings in a file's bytes -/
def Settings.ofFile : Except FileError (List UInt8) → Except SettingsError Settings
  | .error e => .error (.file e)
  | .ok bytes =>
    match Stream.textOf bytes with
    | none => .error (.file (.other "stream did not contain valid UTF-8"))
    | some text => Settings.ofToml text

/-- where settings are looked for when no path is given -/
def Settings.defaultPath : String := "weave.toml"

variable {m : Type → Type} [Monad m]

/-- the settings in a file -/
def FileAccess.loadSettings (files : FileAccess m) (path : String) : m (Except SettingsError Settings) := do
  return Settings.ofFile (← files.read path)

/-- the settings in a file, and the default ones if there is none -/
def FileAccess.loadSettingsIfThere (files : FileAccess m) (path : String) : m (Except SettingsError Settings) := do
  if ← files.pathExists path then files.loadSettings path else return .ok {}

end MixinPlanner
