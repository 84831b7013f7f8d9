/-
Drift between stored plans and the facts: where the plans of a store differ from those that the facts resolve to now.
-/
import MixinPlanner.Batch

namespace MixinPlanner

/-- how the stored plan of a target and a fresh resolution differ -/
inductive Drift where
  /-- the target resolves, and no plan is stored -/
  | missing (fresh : Plan)
  /-- the target resolves to another plan than the one stored -/
  | stale (stored fresh : Plan)
  /-- a plan is stored, and the target does not resolve any more -/
  | rejected (stored : Plan)
  /-- a plan is stored, and there are no facts about the target -/
  | orphaned (stored : Plan)
  deriving DecidableEq

namespace Drift

/-- the target that has drifted -/
def target : Drift → TypeRef
  | missing p | stale p _ | rejected p | orphaned p => p.target

/-- the class of a drift in reports -/
def className : Drift → String
  | missing _ => "plan.missing"
  | stale .. => "plan.stale"
  | rejected _ => "plan.rejected"
  | orphaned _ => "plan.orphaned"

/-- the message of a drift -/
def message : Drift → String
  | missing _ => "resolved but absent from the plan store"
  | stale stored fresh =>
    if stored.contentHash = fresh.contentHash then stored.contentHash.short ++ " differs only in warnings"
    else
      "stored " ++ stored.contentHash.short ++ " (" ++ stored.callChain ++ ") but facts resolve to " ++
        fresh.contentHash.short ++ " (" ++ fresh.callChain ++ ")"
  | rejected _ => "stored plan, but the target no longer resolves"
  | orphaned _ => "stored plan for a target with no facts"

end Drift

namespace PlanSet

/-- how a fresh plan differs from what is stored for its target -/
def driftOfFresh (stored : PlanSet) (fresh : Plan) : Option Drift :=
  match stored.find? fresh.target with
  | none => some (.missing fresh)
  | some old => if old = fresh then none else some (.stale old fresh)

/-- how a stored plan without a fresh one differs, where some targets are known not to resolve -/
def driftOfStored (unresolved : List TypeRef) (fresh : PlanSet) (stored : Plan) : Option Drift :=
  if fresh.contains stored.target then none
  else if stored.target ∈ unresolved then some (.rejected stored)
  else some (.orphaned stored)

/-- the drift of stored plans from fresh ones, where some targets are known not to resolve, in the order of the targets -/
def drift (stored fresh : PlanSet) (unresolved : List TypeRef) : List Drift :=
  (SortedBy.ofList (fresh.toList.filterMap stored.driftOfFresh ++
    stored.toList.filterMap (driftOfStored unresolved fresh)) : SortedBy Drift.target).toList

end PlanSet

/-- the targets of a report that have no plan among the fresh ones -/
def BatchReport.unresolved (r : BatchReport) (fresh : PlanSet) : List TypeRef :=
  (r.targets.map TargetReport.target).filter fun t => !fresh.contains t

end MixinPlanner
