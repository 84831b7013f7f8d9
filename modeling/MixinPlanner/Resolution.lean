/-
Resolution of one target: its facts are folded into a context, the context is validated, and the plan is assembled from the
order that was found. A target with any problem has all its problems and no plan.
-/
import MixinPlanner.Plan
import MixinPlanner.Validation

namespace MixinPlanner

/-- the plan of a context, or its problems -/
def Context.resolve (settings : Settings) (catalog : Catalog) (context : Context) : Except (List Problem) Plan :=
  match context.validate settings catalog with
  | .ok v => .ok ((Plan.assemble catalog context v.order).withWarnings v.warnings)
  | .error problems => .error problems

/-- the plan of a target with its facts, or its problems -/
def resolve (settings : Settings) (catalog : Catalog) (target : TypeRef) (facts : List Fact) :
    Except (List Problem) Plan :=
  (Context.build settings target facts).resolve settings catalog

end MixinPlanner
