/-
Batch resolution of a whole configuration: the catalog, and for every target its facts in the order of declaration.

Targets do not depend on each other. The report lists them in their order, each resolved with its plan, rejected with its
problems, or deferred because the deadline passed before it was started, and it is accepted only if no target failed.
`Configuration.resolveWhen` leaves open which targets find the deadline passed; `Configuration.resolve` decides it for the
deadlines that do not depend on a clock.
-/
import MixinPlanner.Cache

namespace MixinPlanner

/-- the input of one batch -/
structure Configuration where
  catalog : Catalog := .empty
  targets : SortedTable TypeRef (List Fact) := .empty
  deriving DecidableEq

namespace Configuration

/-- the facts of a target -/
def facts (c : Configuration) (target : TypeRef) : List Fact := (c.targets.get? target).getD []

/-- one fact more at the end of a target's facts -/
def push (c : Configuration) (target : TypeRef) (fact : Fact) : Configuration :=
  { c with targets := c.targets.insert (target, c.facts target ++ [fact]) }

/-- the configuration with no target but one -/
def restrict (c : Configuration) (target : TypeRef) : Configuration :=
  { c with targets := .ofList (c.targets.find? target).toList }

end Configuration

/-- what became of a target -/
inductive Outcome where
  | resolved (plan : Plan)
  | rejected (problems : List Problem)
  | deferred
  deriving DecidableEq

/-- what became of one target of a batch -/
structure TargetReport where
  target : TypeRef
  outcome : Outcome
  deriving DecidableEq

/-- how many targets, problems and warnings a report has -/
structure BatchSummary where
  targets : Nat
  resolved : Nat
  rejected : Nat
  deferred : Nat
  problems : Nat
  warnings : Nat
  deriving DecidableEq, Repr, Inhabited

/-- what became of a batch -/
structure BatchReport where
  checkKind : String
  result : String
  failureClasses : List String
  warningClasses : List String
  targets : List TargetReport
  summary : BatchSummary
  deriving DecidableEq

namespace Outcome

/-- the plan of a resolved target -/
def plan? : Outcome → Option Plan
  | resolved plan => some plan
  | _ => none

/-- the problems of a rejected target -/
def problems : Outcome → List Problem
  | rejected ps => ps
  | _ => []

/-- whether a target was deferred -/
def isDeferred : Outcome → Bool
  | deferred => true
  | _ => false

/-- whether a target was rejected -/
def isRejected : Outcome → Bool
  | rejected _ => true
  | _ => false

/-- the class of a deadline that passed -/
def deadlineClass : String := "batch.deadline_exceeded"

/-- the classes under which a target failed -/
def failureClasses : Outcome → List String
  | resolved _ => []
  | rejected ps => ps.map Problem.className
  | deferred => [deadlineClass]

/-- the warnings that come with a target -/
def warnings (o : Outcome) : List Warning := o.plan?.elim [] Plan.warnings

end Outcome

namespace BatchReport

/-- the kind of a report on a batch -/
def resolveKind : String := "weave.resolve.report.v1"

/-- the verdict over a number of failures -/
def verdict (ok : Bool) : String := if ok then "accepted" else "rejected"

/-- the report on some targets -/
def ofTargets (targets : List TargetReport) : BatchReport :=
  let outcomes := targets.map TargetReport.outcome
  let failures : SortedSet String := .ofList (outcomes.flatMap Outcome.failureClasses)
  let warnings := outcomes.flatMap Outcome.warnings
  { checkKind := resolveKind
    result := verdict failures.isEmpty
    failureClasses := failures.toList
    warningClasses := (SortedBy.ofList (warnings.map Warning.className) : SortedSet String).toList
    targets
    summary :=
      { targets := targets.length
        resolved := outcomes.countP fun o => o.plan?.isSome
        rejected := outcomes.countP Outcome.isRejected
        deferred := outcomes.countP Outcome.isDeferred
        problems := (outcomes.flatMap Outcome.problems).length
        warnings := warnings.length } }

/-- whether no target failed -/
def accepted (r : BatchReport) : Bool := r.result == verdict true

/-- the plans of the resolved targets in order -/
def plans (r : BatchReport) : List Plan := r.targets.filterMap fun t => t.outcome.plan?

/-- all problems in the order of their targets -/
def problems (r : BatchReport) : List Problem := r.targets.flatMap fun t => t.outcome.problems

/-- the deferred targets in order -/
def deferred (r : BatchReport) : List TypeRef :=
  (r.targets.filter fun t => t.outcome.isDeferred).map TargetReport.target

/-- plans given to a consumer in turn, up to the first that it refuses: what it made of each, and what it has become -/
def give {σ ε η : Type} (consume : σ → Plan → Except ε (η × σ)) : σ → List Plan → Except ε (List η) × σ
  | s, [] => (.ok [], s)
  | s, p :: rest =>
    match consume s p with
    | .error e => (.error e, s)
    | .ok (made, s) =>
      let (more, s) := give consume s rest
      (more.map (made :: ·), s)

/-- every plan of a report given to a consumer; rejected and deferred targets are passed over -/
def giveAll {σ ε η : Type} (r : BatchReport) (consume : σ → Plan → Except ε (η × σ)) (s : σ) :
    Except ε (List η) × σ :=
  give consume s r.plans

/-- the plans of a report as a set -/
def planSet (r : BatchReport) : Except PlanConflict PlanSet := PlanSet.ofPlans r.plans

end BatchReport

/-- the outcome of a resolution -/
def Outcome.ofResult : Except (List Problem) Plan → Outcome
  | .ok plan => resolved plan
  | .error problems => rejected problems

namespace Configuration

/-- one target of a batch with the cache as it stands -/
def resolveTarget (settings : Settings) (catalog : Catalog) (late : TypeRef → Bool) (cache : PlanCache)
    (entry : TypeRef × List Fact) : TargetReport × PlanCache :=
  if late entry.1 then (⟨entry.1, .deferred⟩, cache)
  else
    let (result, cache) := cache.resolve settings catalog (Context.build settings entry.1 entry.2)
    (⟨entry.1, .ofResult result⟩, cache)

/-- the targets of a batch in turn -/
def resolveTargets (settings : Settings) (catalog : Catalog) (late : TypeRef → Bool) :
    PlanCache → List (TypeRef × List Fact) → List TargetReport × PlanCache
  | cache, [] => ([], cache)
  | cache, entry :: rest =>
    let (report, cache) := resolveTarget settings catalog late cache entry
    let (reports, cache) := resolveTargets settings catalog late cache rest
    (report :: reports, cache)

/-- the batch, where some targets find the deadline passed -/
def resolveWhen (late : TypeRef → Bool) (c : Configuration) (settings : Settings) (cache : PlanCache) :
    BatchReport × PlanCache :=
  let (reports, cache) := resolveTargets settings c.catalog late cache c.targets.toList
  (.ofTargets reports, cache)

/-- the batch: a deadline of no time has passed for every target, and any other for none -/
def resolve (c : Configuration) (settings : Settings) (cache : PlanCache) : BatchReport × PlanCache :=
  c.resolveWhen (fun _ => settings.batch.deadline == some 0) settings cache

end Configuration

end MixinPlanner
