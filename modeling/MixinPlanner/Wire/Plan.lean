/-
The written form of plans.
-/
import MixinPlanner.Plan
import MixinPlanner.Wire.Problem

namespace MixinPlanner

open Wire
open Wire.Record (field fieldOr)

namespace PlannedMixin

/-- a planned mixin as a value -/
def toJson (m : PlannedMixin) : Json :=
  .object (member "mixin" (typeJson m.mixin) ++ member "kind" (.string m.kind.text) ++
    member "visibility" (.string m.visibility.text) ++ memberOfList "dependencies" (typesJson m.dependencies) ++
    memberOfList "introducedInterfaces" (typesJson m.introducedInterfaces))

/-- a planned mixin in a document -/
def decode : Decoder PlannedMixin :=
  (PlannedMixin.mk <$> field "mixin" typeRef <*> field "kind" MixinKind.decode
    <*> field "visibility" Visibility.decode
    <*> fieldOr "dependencies" (some []) (list typeRef)
    <*> fieldOr "introducedInterfaces" (some []) (list typeRef)).decoder .ignored

end PlannedMixin

/-- a status in a document -/
def PlanStatus.decode : Decoder PlanStatus := named [("clean", .clean), ("with_warnings", .withWarnings)]

namespace Plan

/-- a plan as a value -/
def toJson (p : Plan) : Json :=
  .object (member "schema" (.nat p.schema) ++ member "target" (typeJson p.target) ++
    member "mixins" (.array (p.mixins.map PlannedMixin.toJson)) ++
    member "completeInterfaces" (.array (typesJson p.completeInterfaces)) ++
    member "status" (.string p.status.text) ++ memberOfList "warnings" (p.warnings.map Warning.toJson) ++
    member "contentHash" (.string p.contentHash.text))

/-- a plan in a document -/
def decode : Decoder Plan :=
  (Plan.mk <$> field "schema" nat32 <*> field "target" typeRef
    <*> field "mixins" (list PlannedMixin.decode)
    <*> fieldOr "completeInterfaces" (some []) (list typeRef)
    <*> field "status" PlanStatus.decode
    <*> fieldOr "warnings" (some []) (list Warning.decode)
    <*> (ContentHash.mk <$> field "contentHash" string)).decoder .ignored

end Plan

end MixinPlanner
