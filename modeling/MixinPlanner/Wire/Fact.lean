/-
The written form of facts. A mixin fact may leave out everything but the mixin; it is read through `MixinFact.build`, so one
that depends on itself is refused. A fact tells its kind in the member `fact`.
-/
import MixinPlanner.Fact
import MixinPlanner.Wire.Encoder
import MixinPlanner.Wire.Record

namespace MixinPlanner

open Wire
open Wire.Record (field fieldOr)

/-- the kinds by name -/
def MixinKind.variants : List (String × MixinKind) := [("extending", .extending), ("used", .used)]

/-- a kind in a document -/
def MixinKind.decode : Decoder MixinKind := named MixinKind.variants

/-- the visibilities by name -/
def Visibility.variants : List (String × Visibility) := [("public", .exposed), ("private", .hidden)]

/-- a visibility in a document -/
def Visibility.decode : Decoder Visibility := named Visibility.variants

/-- an application as a value -/
def Application.toJson (a : Application) : Json :=
  .object (member "kind" (.string a.kind.text) ++ member "visibility" (.string a.visibility.text))

/-- an application in a document -/
def Application.decode : Decoder Application :=
  (Application.mk <$> field "kind" MixinKind.decode <*> field "visibility" Visibility.decode).decoder .ignored

namespace MixinFact

/-- the members of a written mixin fact -/
def toMembers (f : MixinFact) : MemberList :=
  member "mixin" (typeJson f.mixin) ++ member "kind" (.string f.kind.text) ++
    member "visibility" (.string f.visibility.text) ++ memberOfList "dependencies" (typesJson f.dependencies) ++
    memberOfList "suppresses" (typesJson f.suppresses.toList) ++ memberOfText "origin" f.origin

/-- a mixin fact as a value -/
def toJson (f : MixinFact) : Json := .object f.toMembers

/-- the fact of what a document says, built step by step -/
def ofParts (mixin : TypeRef) (kind : MixinKind) (visibility : Visibility) (dependencies : List TypeRef)
    (suppresses : SortedSet TypeRef) (origin : Option String) : MixinFact :=
  dependencies.foldl dependsOn { mixin, kind, visibility, suppresses, origin }

/-- the fields of a mixin fact -/
def record : Record MixinFact :=
  ofParts <$> field "mixin" typeRef
    <*> fieldOr "kind" (some .extending) MixinKind.decode
    <*> fieldOr "visibility" (some .exposed) Visibility.decode
    <*> fieldOr "dependencies" (some []) (list typeRef)
    <*> fieldOr "suppresses" (some .empty) (set typeRef)
    <*> fieldOr "origin" (some none) (optional string)

/-- a mixin fact in a document -/
def decode : Decoder MixinFact := fun src r => do
  let f ← record.decoder .ignored src r
  match f.build with
  | some f => .ok f
  | none => .error (.selfDependency f.mixin)

end MixinFact

namespace CompleteInterfaceFact

/-- the members of a written complete-interface fact -/
def toMembers (f : CompleteInterfaceFact) : MemberList :=
  member "interface" (typeJson f.interface) ++ memberOfText "origin" f.origin

/-- a complete-interface fact as a value -/
def toJson (f : CompleteInterfaceFact) : Json := .object f.toMembers

/-- a complete-interface fact in a document -/
def decode : Decoder CompleteInterfaceFact :=
  (CompleteInterfaceFact.mk <$> field "interface" typeRef
    <*> fieldOr "origin" (some none) (optional string)).decoder .ignored

end CompleteInterfaceFact

namespace Fact

/-- a fact as a value -/
def toJson : Fact → Json
  | .mixin f => .object (member "fact" (.string "mixin") ++ f.toMembers)
  | .completeInterface f => .object (member "fact" (.string "complete_interface") ++ f.toMembers)

/-- a fact in a document -/
def decode : Decoder Fact :=
  tagged "fact"
    [("mixin", fun src r => (MixinFact.decode src r).map .mixin),
     ("complete_interface", fun src r => (CompleteInterfaceFact.decode src r).map .completeInterface)]

end Fact

end MixinPlanner
