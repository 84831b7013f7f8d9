/-
The written form of contexts, and the hash of a context: of its compact form.
-/
import MixinPlanner.Context
import MixinPlanner.Wire.Problem

namespace MixinPlanner

open Wire
open Wire.Record (field fieldOr)

/-- an entry as a value -/
def MixinEntry.toJson (e : MixinEntry) : Json :=
  .object (member "fact" e.fact.toJson ++ member "declarationIndex" (.nat e.declarationIndex))

/-- an entry in a document -/
def MixinEntry.decode : Decoder MixinEntry :=
  (MixinEntry.mk <$> field "fact" MixinFact.decode <*> field "declarationIndex" nat64).decoder .ignored

/-- a conflict as a value -/
def MixinConflict.toJson (k : MixinConflict) : Json :=
  .object (member "mixin" (typeJson k.mixin) ++ member "first" k.first.toJson ++ member "second" k.second.toJson ++
    member "firstIndex" (.nat k.firstIndex) ++ member "secondIndex" (.nat k.secondIndex))

/-- a conflict in a document -/
def MixinConflict.decode : Decoder MixinConflict :=
  (MixinConflict.mk <$> field "mixin" typeRef <*> field "first" Application.decode
    <*> field "second" Application.decode <*> field "firstIndex" nat64
    <*> field "secondIndex" nat64).decoder .ignored

namespace Context

/-- a context as a value -/
def toJson (c : Context) : Json :=
  .object (member "target" (typeJson c.target) ++ member "mixins" (.array (c.mixins.map MixinEntry.toJson)) ++
    member "completeInterfaces" (.array (c.completeInterfaces.map CompleteInterfaceFact.toJson)) ++
    member "conflicts" (.array (c.conflicts.map MixinConflict.toJson)) ++
    member "warnings" (.array (c.warnings.map Warning.toJson)))

/-- a context in a document -/
def decode : Decoder Context :=
  (Context.mk <$> field "target" typeRef
    <*> field "mixins" (list MixinEntry.decode)
    <*> field "completeInterfaces" (list CompleteInterfaceFact.decode)
    <*> field "conflicts" (list MixinConflict.decode)
    <*> field "warnings" (list Warning.decode)).decoder .ignored

/-- the hash of a context -/
def contentHash (c : Context) : ContentHash := .ofText c.toJson.compact

end Context

end MixinPlanner
