/-
Facts: what is declared about a target, one declaration after the other.

A mixin fact applies a mixin to the target; a complete-interface fact says that the target's mixins satisfy an interface.
Facts are built step by step. A mixin names each dependency once, in the order of first mention, and is never its own
dependency: `MixinFact.build` refuses that, and `MixinFact.absorb`, which merges a later declaration of the same mixin into
an earlier one, keeps it.
-/
import MixinPlanner.SortedBy
import MixinPlanner.TypeRef.Order

namespace MixinPlanner

/-- how a mixin relates to its target: it is declared to extend it, or the target is declared to use it -/
inductive MixinKind where
  | extending
  | used
  deriving DecidableEq, Repr, Inhabited

/-- the visibility of the members that a mixin brings into the composed type -/
inductive Visibility where
  | exposed
  | hidden
  deriving DecidableEq, Repr, Inhabited

/-- the name of a kind -/
def MixinKind.text : MixinKind → String
  | extending => "extending"
  | used => "used"

/-- the name of a visibility -/
def Visibility.text : Visibility → String
  | exposed => "public"
  | hidden => "private"

/-- how a mixin was applied: what two declarations of it have to agree on -/
structure Application where
  kind : MixinKind
  visibility : Visibility
  deriving DecidableEq, Repr, Inhabited

/-- kind and visibility with a slash between them -/
def Application.text (a : Application) : String := a.kind.text ++ "/" ++ a.visibility.text

/-- one declared application of a mixin to a target -/
structure MixinFact where
  mixin : TypeRef
  kind : MixinKind := .extending
  visibility : Visibility := .exposed
  dependencies : List TypeRef := []
  suppresses : SortedSet TypeRef := .empty
  origin : Option String := none
  deriving DecidableEq

/-- an interface declared as satisfied by a target's mixins -/
structure CompleteInterfaceFact where
  interface : TypeRef
  origin : Option String := none
  deriving DecidableEq

/-- one declaration -/
inductive Fact where
  | mixin (fact : MixinFact)
  | completeInterface (fact : CompleteInterfaceFact)
  deriving DecidableEq

/-- a list with elements added that it does not have yet, in their order -/
def addNew {α : Type} [DecidableEq α] (known new : List α) : List α :=
  new.foldl (fun l a => if a ∈ l then l else l ++ [a]) known

namespace MixinFact

/-- the application that a fact declares -/
def application (f : MixinFact) : Application := ⟨f.kind, f.visibility⟩

/-- one dependency more, unless it is known -/
def dependsOn (f : MixinFact) (dependency : TypeRef) : MixinFact :=
  { f with dependencies := addNew f.dependencies [dependency] }

/-- one mixin more that the fact suppresses -/
def suppress (f : MixinFact) (suppressed : TypeRef) : MixinFact :=
  { f with suppresses := f.suppresses.insert suppressed }

/-- the fact as it is, unless the mixin depends on itself -/
def build (f : MixinFact) : Option MixinFact :=
  if f.mixin ∈ f.dependencies then none else some f

/-- what a finished fact keeps: every dependency is listed once, and the mixin is not among them -/
structure WellFormed (f : MixinFact) : Prop where
  nodup : f.dependencies.Nodup
  not_self : f.mixin ∉ f.dependencies

/-- a later declaration of the same mixin merged into an earlier one: its new dependencies follow the known ones and its
suppressions join; kind, visibility and origin stay as they were -/
def absorb (f later : MixinFact) : MixinFact :=
  { f with
    dependencies := addNew f.dependencies later.dependencies
    suppresses := f.suppresses.insertAll later.suppresses.toList }

end MixinFact

end MixinPlanner
