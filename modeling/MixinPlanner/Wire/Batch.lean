/-
The written form of configurations and batch reports.
-/
import MixinPlanner.Batch
import MixinPlanner.Wire.Plan

namespace MixinPlanner

open Wire
open Wire.Record (field fieldOr)

namespace Configuration

/-- a configuration as a value -/
def toJson (c : Configuration) : Json :=
  .object (member "catalog" c.catalog.toJson ++
    member "targets" (.object (c.targets.toList.map fun e => (e.1.text, .array (e.2.map Fact.toJson)))))

/-- a configuration in a document -/
def decode : Decoder Configuration :=
  (Configuration.mk <$> field "catalog" Catalog.decode
    <*> field "targets" (table typeKey (list Fact.decode))).decoder .ignored

end Configuration

namespace Outcome

/-- the members of a written outcome -/
def toMembers : Outcome → MemberList
  | resolved plan => member "outcome" (.string "resolved") ++ member "plan" plan.toJson
  | rejected ps => member "outcome" (.string "rejected") ++ member "errors" (.array (ps.map Problem.toJson))
  | deferred => member "outcome" (.string "deferred")

/-- an outcome in a document -/
def decode : Decoder Outcome :=
  tagged "outcome"
    [("resolved", (resolved <$> field "plan" Plan.decode).decoder .ignored),
     ("rejected", (rejected <$> field "errors" (list Problem.decode)).decoder .ignored),
     ("deferred", nothingMore deferred)]

end Outcome

/-- a target's report as a value -/
def TargetReport.toJson (t : TargetReport) : Json :=
  .object (member "target" (typeJson t.target) ++ t.outcome.toMembers)

/-- a target's report in a document -/
def TargetReport.decode : Decoder TargetReport :=
  (field "target" typeRef).alongside fun target src r => (Outcome.decode src r).map (TargetReport.mk target)

/-- a summary as a value -/
def BatchSummary.toJson (s : BatchSummary) : Json :=
  .object (member "targetCount" (.nat s.targets) ++ member "resolvedCount" (.nat s.resolved) ++
    member "rejectedCount" (.nat s.rejected) ++ member "deferredCount" (.nat s.deferred) ++
    member "errorCount" (.nat s.problems) ++ member "warningCount" (.nat s.warnings))

/-- a summary in a document -/
def BatchSummary.decode : Decoder BatchSummary :=
  (BatchSummary.mk <$> field "targetCount" nat64 <*> field "resolvedCount" nat64 <*> field "rejectedCount" nat64
    <*> field "deferredCount" nat64 <*> field "errorCount" nat64 <*> field "warningCount" nat64).decoder .ignored

namespace BatchReport

/-- a report as a value -/
def toJson (r : BatchReport) : Json :=
  .object (member "checkKind" (.string r.checkKind) ++ member "result" (.string r.result) ++
    member "failureClasses" (.strings r.failureClasses) ++ member "warningClasses" (.strings r.warningClasses) ++
    member "targets" (.array (r.targets.map TargetReport.toJson)) ++ member "summary" r.summary.toJson)

/-- a report in a document -/
def decode : Decoder BatchReport :=
  (BatchReport.mk <$> field "checkKind" string <*> field "result" string
    <*> field "failureClasses" (list string) <*> field "warningClasses" (list string)
    <*> field "targets" (list TargetReport.decode) <*> field "summary" BatchSummary.decode).decoder .ignored

end BatchReport

end MixinPlanner
