/-
The written form of settings. What is missing has its default; a name that is no setting is refused.
-/
import MixinPlanner.Settings
import MixinPlanner.Wire.Encoder
import MixinPlanner.Wire.Record

namespace MixinPlanner

open Wire
open Wire.Record (field fieldOr)

/-- a number that may be unset -/
def Wire.optionalNat : Option Nat → Json
  | none => .null
  | some n => .nat n

/-- batch settings as a value -/
def BatchSettings.toJson (b : BatchSettings) : Json :=
  .object (member "parallel" (.bool b.parallel) ++ member "deadline_ms" (optionalNat b.deadline) ++
    member "threads" (optionalNat b.threads))

/-- batch settings in a document -/
def BatchSettings.decode : Decoder BatchSettings :=
  (BatchSettings.mk <$> fieldOr "parallel" (some true) bool
    <*> fieldOr "deadline_ms" (some none) (optional nat64)
    <*> fieldOr "threads" (some none) (optional nat64)).decoder .refused

/-- settings as a value -/
def Settings.toJson (s : Settings) : Json :=
  .object (member "strict_dependencies" (.bool s.strictDependencies) ++
    member "suppress_generic_definitions" (.bool s.suppressDefinitions) ++ member "batch" s.batch.toJson)

/-- settings in a document -/
def Settings.decode : Decoder Settings :=
  (Settings.mk <$> fieldOr "strict_dependencies" (some true) bool
    <*> fieldOr "suppress_generic_definitions" (some true) bool
    <*> fieldOr "batch" (some {}) BatchSettings.decode).decoder .refused

end MixinPlanner
