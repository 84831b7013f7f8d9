/-
Composition plans: what a target is composed of.

A plan lists the mixins from the outermost to the innermost, next to the target's own implementation, with the complete
interfaces and the warnings found on the way. Its content hash covers the target, the mixins in their order and the complete
interfaces; a plan read back from a store is trusted only if the hash that it carries is the one of its content.

A `PlanSet` holds one plan for each target. The same plan may be added again; another one for the same target is refused.
-/
import MixinPlanner.Catalog
import MixinPlanner.Context

namespace MixinPlanner

/-- the version of the form in which plans are stored -/
def planSchema : Nat := 1

/-- one mixin in a plan -/
structure PlannedMixin where
  mixin : TypeRef
  kind : MixinKind
  visibility : Visibility
  dependencies : List TypeRef := []
  /-- the interfaces that the mixin brings into the composed type -/
  introducedInterfaces : List TypeRef := []
  deriving DecidableEq

/-- whether a plan came with warnings -/
inductive PlanStatus where
  | clean
  | withWarnings
  deriving DecidableEq, Repr, Inhabited

/-- the name of a status -/
def PlanStatus.text : PlanStatus → String
  | clean => "clean"
  | withWarnings => "with_warnings"

/-- what a target is composed of -/
structure Plan where
  schema : Nat
  target : TypeRef
  mixins : List PlannedMixin
  completeInterfaces : List TypeRef := []
  status : PlanStatus
  warnings : List Warning := []
  contentHash : ContentHash
  deriving DecidableEq

namespace Plan

/-- the mixins in order, outermost first -/
def order (p : Plan) : List TypeRef := p.mixins.map PlannedMixin.mixin

/-- the mixins and then the target, each calling the next -/
def callChain (p : Plan) : String := TypeRef.joined " -> " (p.order ++ [p.target])

/-- the warnings replaced, and the status with them -/
def withWarnings (p : Plan) (warnings : List Warning) : Plan :=
  { p with warnings, status := if warnings.isEmpty then .clean else .withWarnings }

/-- the parts of a plan that its hash covers, laid out -/
def hashedFields (target : TypeRef) (order completeInterfaces : List TypeRef) : Fields :=
  (((Fields.empty.int "schema" planSchema).text "target" target.text).list "mixins" (order.map TypeRef.text)).list
    "complete_interfaces" (completeInterfaces.map TypeRef.text)

/-- the hash of a plan's content -/
def computeHash (p : Plan) : ContentHash := (hashedFields p.target p.order p.completeInterfaces).hash

/-- whether the hash that a plan carries is the one of its content -/
def hashMatches (p : Plan) : Bool := p.computeHash == p.contentHash

/-- the plan of a context for an order of its mixins, with the context's warnings. What is in the order and not in the
context is left out. -/
def assemble (catalog : Catalog) (context : Context) (order : List TypeRef) : Plan :=
  let mixins := (order.filterMap context.find?).map fun e =>
    ({ mixin := e.mixin
       kind := e.fact.kind
       visibility := e.fact.visibility
       dependencies := e.fact.dependencies
       introducedInterfaces := catalog.directInterfaces e.mixin } : PlannedMixin)
  let interfaces := context.completeInterfaces.map CompleteInterfaceFact.interface
  let plan : Plan :=
    { schema := planSchema
      target := context.target
      mixins
      completeInterfaces := interfaces
      status := .clean
      contentHash := (hashedFields context.target (mixins.map PlannedMixin.mixin) interfaces).hash }
  plan.withWarnings context.warnings

end Plan

/-- plans by target -/
abbrev PlanSet : Type := SortedBy Plan.target

/-- two different plans for one target -/
structure PlanConflict where
  target : TypeRef
  existing : ContentHash
  incoming : ContentHash
  deriving DecidableEq

/-- the message of a conflict -/
def PlanConflict.message (k : PlanConflict) : String :=
  "conflicting plans for " ++ k.target.text ++ ": " ++ k.existing.short ++ " vs " ++ k.incoming.short

namespace PlanSet

/-- one plan more; the plan of a target may be added again, another one for it may not -/
def add (s : PlanSet) (p : Plan) : Except PlanConflict PlanSet :=
  match s.find? p.target with
  | none => .ok (s.insert p)
  | some existing => if existing = p then .ok s else .error ⟨p.target, existing.contentHash, p.contentHash⟩

/-- one plan collected: it is added, and its hash is what stands for it -/
def collect (s : PlanSet) (p : Plan) : Except PlanConflict (ContentHash × PlanSet) :=
  (s.add p).map fun s => (p.contentHash, s)

/-- plans added in turn up to the first conflict: the set that results, and the conflict -/
def addAll (s : PlanSet) : List Plan → PlanSet × Option PlanConflict
  | [] => (s, none)
  | p :: rest =>
    match s.add p with
    | .ok s => addAll s rest
    | .error k => (s, some k)

/-- the set of some plans, if no two of them conflict -/
def ofPlans (plans : List Plan) : Except PlanConflict PlanSet :=
  match addAll SortedBy.empty plans with
  | (s, none) => .ok s
  | (_, some k) => .error k

/-- the plans of another set added in the order of their targets, up to the first conflict -/
def merge (s other : PlanSet) : PlanSet × Option PlanConflict := s.addAll other.toList

end PlanSet

end MixinPlanner
