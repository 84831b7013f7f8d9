/-
The written form of problems and warnings: objects that tell their class in the member `class`.
-/
import MixinPlanner.Problem
import MixinPlanner.Wire.Fact

namespace MixinPlanner

open Wire
open Wire.Record (field fieldOr)

namespace Problem

/-- the name of a problem in the member `class` -/
def tag : Problem → String
  | conflictingApplication .. => "conflicting_mixin_application"
  | invalidArguments .. => "invalid_generic_arguments"
  | unsatisfiedDependency .. => "unsatisfied_dependency"
  | ambiguousDependency .. => "ambiguous_dependency"
  | cyclicDependency .. => "cyclic_mixin_dependency"
  | unsatisfiableInterface .. => "unsatisfiable_complete_interface"

/-- the members of a written problem after its class -/
def toMembers : Problem → MemberList
  | conflictingApplication t m a b i j =>
    member "target" (typeJson t) ++ member "mixin" (typeJson m) ++ member "first" a.toJson ++
      member "second" b.toJson ++ member "firstIndex" (.nat i) ++ member "secondIndex" (.nat j)
  | invalidArguments t m e a reason =>
    member "target" (typeJson t) ++ member "mixin" (typeJson m) ++ member "expected" (.nat e) ++
      member "actual" (.nat a) ++ member "reason" (.string reason)
  | unsatisfiedDependency t m d =>
    member "target" (typeJson t) ++ member "mixin" (typeJson m) ++ member "dependency" (typeJson d)
  | ambiguousDependency t m d cs =>
    member "target" (typeJson t) ++ member "mixin" (typeJson m) ++ member "dependency" (typeJson d) ++
      member "candidates" (.array (typesJson cs))
  | cyclicDependency t cycle => member "target" (typeJson t) ++ member "cycle" (.array (typesJson cycle))
  | unsatisfiableInterface t i reason =>
    member "target" (typeJson t) ++ member "interface" (typeJson i) ++ member "reason" (.string reason)

/-- a problem as a value -/
def toJson (p : Problem) : Json := .object (member "class" (.string p.tag) ++ p.toMembers)

/-- a problem in a document -/
def decode : Decoder Problem :=
  tagged "class"
    [("conflicting_mixin_application",
        (conflictingApplication <$> field "target" typeRef <*> field "mixin" typeRef
          <*> field "first" Application.decode <*> field "second" Application.decode
          <*> field "firstIndex" nat64 <*> field "secondIndex" nat64).decoder .ignored),
     ("invalid_generic_arguments",
        (invalidArguments <$> field "target" typeRef <*> field "mixin" typeRef <*> field "expected" nat64
          <*> field "actual" nat64 <*> field "reason" string).decoder .ignored),
     ("unsatisfied_dependency",
        (unsatisfiedDependency <$> field "target" typeRef <*> field "mixin" typeRef
          <*> field "dependency" typeRef).decoder .ignored),
     ("ambiguous_dependency",
        (ambiguousDependency <$> field "target" typeRef <*> field "mixin" typeRef <*> field "dependency" typeRef
          <*> field "candidates" (list typeRef)).decoder .ignored),
     ("cyclic_mixin_dependency",
        (cyclicDependency <$> field "target" typeRef <*> field "cycle" (list typeRef)).decoder .ignored),
     ("unsatisfiable_complete_interface",
        (unsatisfiableInterface <$> field "target" typeRef <*> field "interface" typeRef
          <*> field "reason" string).decoder .ignored)]

end Problem

namespace Warning

/-- a warning as a value -/
def toJson : Warning → Json
  | unusedSuppression m s =>
    .object (member "class" (.string "unused_suppression") ++ member "suppressor" (typeJson m) ++
      member "suppressed" (typeJson s))
  | ignoredDependency m d =>
    .object (member "class" (.string "ignored_dependency") ++ member "mixin" (typeJson m) ++
      member "dependency" (typeJson d))

/-- a warning in a document -/
def decode : Decoder Warning :=
  tagged "class"
    [("unused_suppression",
        (unusedSuppression <$> field "suppressor" typeRef <*> field "suppressed" typeRef).decoder .ignored),
     ("ignored_dependency",
        (ignoredDependency <$> field "mixin" typeRef <*> field "dependency" typeRef).decoder .ignored)]

end Warning

end MixinPlanner
