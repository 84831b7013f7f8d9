/-
The written form of the catalog: an object from names to declarations. A declaration that stands under another name than its
own is refused.
-/
import MixinPlanner.Catalog
import MixinPlanner.Digest.ContentHash
import MixinPlanner.Wire.Encoder
import MixinPlanner.Wire.Record

namespace MixinPlanner

open Wire
open Wire.Record (field fieldOr)

/-- the kinds of types by name -/
def TypeKind.variants : List (String × TypeKind) := [("class", .classType), ("interface", .interfaceType)]

/-- a kind of type in a document -/
def TypeKind.decode : Decoder TypeKind := named TypeKind.variants

namespace GenericParam

/-- a parameter as a value -/
def toJson (p : GenericParam) : Json :=
  .object (member "name" (.string p.name) ++ memberOfList "constraints" (typesJson p.constraints))

/-- a parameter in a document -/
def decode : Decoder GenericParam :=
  (GenericParam.mk <$> field "name" string <*> fieldOr "constraints" (some []) (list typeRef)).decoder .ignored

end GenericParam

namespace TypeDecl

/-- the members of a written declaration -/
def toMembers (d : TypeDecl) : MemberList :=
  member "name" (.string d.name) ++ member "kind" (.string d.kind.text) ++
    memberOfList "genericParams" (d.genericParams.map GenericParam.toJson) ++
    memberOfList "interfaces" (typesJson d.interfaces) ++ memberOfList "members" (d.members.toList.map .string)

/-- a declaration as a value -/
def toJson (d : TypeDecl) : Json := .object d.toMembers

/-- a declaration in a document -/
def decode : Decoder TypeDecl :=
  (TypeDecl.mk <$> field "name" string
    <*> field "kind" TypeKind.decode
    <*> fieldOr "genericParams" (some []) (list GenericParam.decode)
    <*> fieldOr "interfaces" (some []) (list typeRef)
    <*> fieldOr "members" (some .empty) (set string)).decoder .ignored

end TypeDecl

namespace Catalog

/-- a catalog as a value -/
def toJson (c : Catalog) : Json := .object (c.toList.map fun d => (d.name, d.toJson))

/-- the catalog of a table of declarations, if each stands under its own name -/
def ofTable (t : SortedTable String TypeDecl) : Except Fault Catalog :=
  match t.toList.find? fun e => e.1 != e.2.name with
  | some (key, d) => .error (.misnamedEntry key d.name)
  | none => .ok (.ofList (t.toList.map Prod.snd))

/-- a catalog in a document -/
def decode : Decoder Catalog := fun src r => do
  ofTable (← table Except.ok TypeDecl.decode src r)

/-- the hash of a catalog: of its compact form -/
def digest (c : Catalog) : ContentHash := .ofText c.toJson.compact

end Catalog

end MixinPlanner
