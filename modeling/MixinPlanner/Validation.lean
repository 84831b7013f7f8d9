/-
Validation of a context: every check is made, every problem is kept, and only a context without any passes.

The problems stand in a fixed order: for each mixin, in the order of declaration, the conflicts about it and then its
generic arguments; the complete interfaces; the dependencies that made no link; and last the cycle, if there is no order.
-/
import MixinPlanner.Dependency.Ordering

namespace MixinPlanner

/-- a conflict as a problem of its target -/
def MixinConflict.problem (target : TypeRef) (k : MixinConflict) : Problem :=
  .conflictingApplication target k.mixin k.first k.second k.firstIndex k.secondIndex

namespace Catalog

/-- the first constraint that the arguments of an application fail, with the argument and the parameter -/
def failedConstraint (catalog : Catalog) (params : List GenericParam) (args : List TypeArg) :
    Option (TypeRef × String × TypeRef) :=
  (params.zip args).findSome? fun
    | (_, .param _) => none
    | (p, .closed t) => (p.constraints.find? fun i => !catalog.provides t i).map fun i => (t, p.name, i)

/-- what is wrong with the generic arguments of a type: the number expected, and the reason -/
def argumentFault (catalog : Catalog) (t : TypeRef) : Option (Nat × String) :=
  match catalog.decl? t with
  | none => if t.arity = 0 then none else some (0, t.name ++ " is not a known generic definition")
  | some d =>
    let expected := d.genericParams.length
    if t.arity ≠ expected then
      some (expected, "expected " ++ toString expected ++ " type argument(s), found " ++ toString t.arity)
    else
      (catalog.failedConstraint d.genericParams t.args).map fun (arg, param, constraint) =>
        (expected, "argument " ++ arg.text ++ " for parameter " ++ param ++ " does not implement " ++ constraint.text)

end Catalog

namespace Context

/-- the problem with a mixin's generic arguments -/
def argumentProblem (c : Context) (catalog : Catalog) (mixin : TypeRef) : Option Problem :=
  (catalog.argumentFault mixin).map fun (expected, reason) =>
    .invalidArguments c.target mixin expected mixin.arity reason

/-- the problems with one mixin: the conflicts about it, then its generic arguments -/
def mixinProblems (c : Context) (catalog : Catalog) (e : MixinEntry) : List Problem :=
  (c.conflicts.filter fun k => k.mixin == e.mixin).map (MixinConflict.problem c.target) ++
    (c.argumentProblem catalog e.mixin).toList

/-- the members of the target and of its mixins -/
def providedMembers (c : Context) (catalog : Catalog) : List String :=
  (c.target :: c.mixins.map MixinEntry.mixin).flatMap fun t => (catalog.members t).toList

/-- why a complete interface is not satisfied: it is no interface, or all its members are missing -/
def interfaceFault (c : Context) (catalog : Catalog) (interface : TypeRef) : Option String :=
  if !catalog.isInterface interface then some (interface.text ++ " is not a known interface")
  else
    let required := (catalog.members interface).toList
    let provided := c.providedMembers catalog
    if required.isEmpty || required.any provided.contains then none
    else some ("none of its members (" ++ ", ".intercalate required ++ ") is provided by a mixin or the target")

/-- the problem with one complete interface -/
def interfaceProblem (c : Context) (catalog : Catalog) (fact : CompleteInterfaceFact) : Option Problem :=
  (c.interfaceFault catalog fact.interface).map (.unsatisfiableInterface c.target fact.interface)

/-- the problems that show without the dependency graph -/
def problems (c : Context) (catalog : Catalog) : List Problem :=
  c.mixins.flatMap (c.mixinProblems catalog) ++ c.completeInterfaces.filterMap (c.interfaceProblem catalog)

end Context

/-- a context that passed -/
structure Validated where
  graph : DependencyGraph
  /-- the mixins outermost first -/
  order : List TypeRef
  warnings : List Warning

namespace Context

/-- the order of a context's mixins, or everything that is wrong with it -/
def validate (settings : Settings) (catalog : Catalog) (c : Context) : Except (List Problem) Validated :=
  let graph := DependencyGraph.build settings catalog c
  let found := c.problems catalog ++ graph.issues
  match graph.order with
  | .error cycle => .error (found ++ [.cyclicDependency c.target cycle])
  | .ok order => if found.isEmpty then .ok ⟨graph, order, c.warnings ++ graph.warnings⟩ else .error found

end Context

end MixinPlanner
