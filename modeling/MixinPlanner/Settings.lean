/-
Settings of the resolver. The first two decide what is resolved; the batch settings only decide when, and so they are left
out of the digest that identifies a resolution.
-/
import MixinPlanner.Digest.ContentHash

namespace MixinPlanner

/-- how a batch is scheduled -/
structure BatchSettings where
  /-- whether targets are resolved side by side -/
  parallel : Bool := true
  /-- the time after which no further target is started, in milliseconds -/
  deadline : Option Nat := none
  /-- the number of workers -/
  threads : Option Nat := none
  deriving DecidableEq, Repr, Inhabited

/-- settings of the resolver -/
structure Settings where
  /-- whether a dependency on something absent is an error, rather than ignored with a warning -/
  strictDependencies : Bool := true
  /-- whether a suppression that names a definition removes its applications too -/
  suppressDefinitions : Bool := true
  batch : BatchSettings := {}
  deriving DecidableEq, Repr, Inhabited

/-- a truth value in words -/
def truth (b : Bool) : String := if b then "true" else "false"

/-- the hash of the settings that decide what is resolved -/
def Settings.digest (s : Settings) : ContentHash :=
  ((Fields.empty.text "strict_dependencies" (truth s.strictDependencies)).text
    "suppress_generic_definitions" (truth s.suppressDefinitions)).hash

end MixinPlanner
