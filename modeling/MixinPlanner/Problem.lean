/-
What can be said against a target: errors, each of which leaves it without a plan, and warnings, which go with the plan.

Both carry what their messages name, and belong to a class by which reports group them.
-/
import MixinPlanner.Fact
import MixinPlanner.TypeRef.Printer

namespace MixinPlanner

/-- a reason why a target has no plan -/
inductive Problem where
  /-- a mixin is declared twice, with another kind or visibility -/
  | conflictingApplication (target mixin : TypeRef) (first second : Application) (firstIndex secondIndex : Nat)
  /-- a generic mixin has the wrong number of arguments, or one that fails a constraint -/
  | invalidArguments (target mixin : TypeRef) (expected actual : Nat) (reason : String)
  /-- nothing provides a dependency -/
  | unsatisfiedDependency (target mixin dependency : TypeRef)
  /-- several mixins provide a dependency -/
  | ambiguousDependency (target mixin dependency : TypeRef) (candidates : List TypeRef)
  /-- mixins depend on each other in a circle: each on the next, the last on the first -/
  | cyclicDependency (target : TypeRef) (cycle : List TypeRef)
  /-- neither the target nor a mixin covers a complete interface -/
  | unsatisfiableInterface (target interface : TypeRef) (reason : String)
  deriving DecidableEq

namespace Problem

/-- the class of a problem in reports -/
def className : Problem → String
  | conflictingApplication .. => "mixin.conflicting_application"
  | invalidArguments .. => "mixin.invalid_generic_arguments"
  | unsatisfiedDependency .. => "mixin.unsatisfied_dependency"
  | ambiguousDependency .. => "mixin.ambiguous_dependency"
  | cyclicDependency .. => "mixin.cyclic_dependency"
  | unsatisfiableInterface .. => "mixin.unsatisfiable_complete_interface"

/-- the target that has the problem -/
def target : Problem → TypeRef
  | conflictingApplication t .. | invalidArguments t .. | unsatisfiedDependency t .. | ambiguousDependency t ..
  | cyclicDependency t .. | unsatisfiableInterface t .. => t

/-- the message of a problem -/
def message : Problem → String
  | conflictingApplication t m a b i j =>
    t.text ++ ": mixin " ++ m.text ++ " declared as " ++ a.text ++ " and again as " ++ b.text ++
      " (declarations " ++ toString i ++ " and " ++ toString j ++ ")"
  | invalidArguments t m _ _ reason =>
    t.text ++ ": mixin " ++ m.text ++ " has invalid generic arguments: " ++ reason
  | unsatisfiedDependency t m d =>
    t.text ++ ": mixin " ++ m.text ++ " depends on " ++ d.text ++ ", which nothing in the context provides"
  | ambiguousDependency t m d cs =>
    t.text ++ ": mixin " ++ m.text ++ " depends on " ++ d.text ++ ", which is provided by several mixins: " ++
      TypeRef.joined ", " cs
  | cyclicDependency t cycle =>
    t.text ++ ": cyclic mixin dependency: " ++ TypeRef.joined " -> " (cycle ++ cycle.take 1)
  | unsatisfiableInterface t i reason =>
    t.text ++ ": complete interface " ++ i.text ++ " cannot be satisfied: " ++ reason

end Problem

/-- something worth noting about a plan -/
inductive Warning where
  /-- a suppression found nothing declared before it -/
  | unusedSuppression (suppressor suppressed : TypeRef)
  /-- a dependency on something absent was ignored -/
  | ignoredDependency (mixin dependency : TypeRef)
  deriving DecidableEq

namespace Warning

/-- the class of a warning in reports -/
def className : Warning → String
  | unusedSuppression .. => "mixin.unused_suppression"
  | ignoredDependency .. => "mixin.ignored_dependency"

/-- the message of a warning -/
def message : Warning → String
  | unusedSuppression m s => m.text ++ " suppresses " ++ s.text ++ ", which was not declared before it"
  | ignoredDependency m d => m.text ++ " depends on absent " ++ d.text ++ " (ignored)"

end Warning

end MixinPlanner
