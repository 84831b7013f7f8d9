/-
The catalog: what is known about the types that mixins, targets and arguments name.

A declaration says whether a type is a class or an interface, which generic parameters it has, which interfaces it
implements or extends, and which members it declares. References in it may mention the declaration's own parameters; an
application of the type has them replaced by its arguments.

`allInterfaces` closes the direct interfaces of a type under bases. Declarations that expand themselves would never close,
so the closure stops at `closureBound` interfaces.
-/
import MixinPlanner.SortedBy
import MixinPlanner.TypeRef.Order

namespace MixinPlanner

/-- what a declared type is -/
inductive TypeKind where
  | classType
  | interfaceType
  deriving DecidableEq, Repr, Inhabited

/-- the name of a kind of type -/
def TypeKind.text : TypeKind → String
  | classType => "class"
  | interfaceType => "interface"

/-- a generic parameter with the interfaces that a closed argument for it has to implement -/
structure GenericParam where
  name : String
  constraints : List TypeRef := []
  deriving DecidableEq

/-- what is known about one type -/
structure TypeDecl where
  name : String
  kind : TypeKind
  genericParams : List GenericParam := []
  interfaces : List TypeRef := []
  members : SortedSet String := .empty
  deriving DecidableEq

namespace TypeDecl

/-- a class of which only the name is known -/
def ofClass (name : String) : TypeDecl := { name, kind := .classType }

/-- an interface of which only the name is known -/
def ofInterface (name : String) : TypeDecl := { name, kind := .interfaceType }

/-- one parameter more -/
def withParam (d : TypeDecl) (name : String) (constraints : List TypeRef) : TypeDecl :=
  { d with genericParams := d.genericParams ++ [⟨name, constraints⟩] }

/-- one interface more -/
def implementing (d : TypeDecl) (interface : TypeRef) : TypeDecl :=
  { d with interfaces := d.interfaces ++ [interface] }

/-- one member more -/
def withMember (d : TypeDecl) (member : String) : TypeDecl :=
  { d with members := d.members.insert member }

/-- whether the type has parameters -/
def isGeneric (d : TypeDecl) : Bool := !d.genericParams.isEmpty

/-- what the parameters are bound to by arguments in their positions; of two parameters with one name the later counts -/
def binding (d : TypeDecl) (args : List TypeArg) (param : String) : Option TypeArg :=
  ((d.genericParams.map GenericParam.name).zip args).reverse.lookup param

/-- the declared interfaces for an application of the type: with the parameters bound to the arguments, if there are as
many of these, and otherwise as they are written -/
def interfacesFor (d : TypeDecl) (args : List TypeArg) : List TypeRef :=
  if d.genericParams.length = args.length then d.interfaces.map (TypeRef.substitute (d.binding args)) else d.interfaces

end TypeDecl

/-- declarations by name -/
abbrev Catalog : Type := SortedBy TypeDecl.name

/-- whether a type answers to what is wanted: it is that very type, or what is wanted is a definition that it applies -/
def TypeRef.answers (t wanted : TypeRef) : Bool :=
  t == wanted || (wanted.isDefinition && t.sameDefinition wanted)

/-- the number of interfaces at which a closure stops -/
def closureBound : Nat := 256

namespace Catalog

/-- the declaration that a reference applies -/
def decl? (c : Catalog) (t : TypeRef) : Option TypeDecl := c.find? t.name

/-- whether a reference applies a declared interface -/
def isInterface (c : Catalog) (t : TypeRef) : Bool :=
  (c.decl? t).any fun d => d.kind == .interfaceType

/-- the interfaces declared directly for a type -/
def directInterfaces (c : Catalog) (t : TypeRef) : List TypeRef :=
  match c.decl? t with
  | none => []
  | some d => d.interfacesFor t.args

/-- the interfaces reached so far, with as many more as a budget allows: the first that waits and is not known yet joins,
and its own direct interfaces wait behind the others -/
def closure (c : Catalog) : Nat → SortedSet TypeRef → List TypeRef → SortedSet TypeRef
  | 0, reached, _ => reached
  | budget + 1, reached, waiting =>
    match waiting.dropWhile reached.contains with
    | [] => reached
    | t :: rest => closure c budget (reached.insert t) (rest ++ c.directInterfaces t)

/-- every interface of a type, direct ones and their bases, up to the bound -/
def allInterfaces (c : Catalog) (t : TypeRef) : SortedSet TypeRef :=
  c.closure closureBound .empty (c.directInterfaces t)

/-- whether a type has an interface that answers to the wanted one, directly or through bases -/
def implements (c : Catalog) (t wanted : TypeRef) : Bool :=
  (c.allInterfaces t).toList.any fun i => i.answers wanted

/-- whether a type is what is wanted, or implements it -/
def provides (c : Catalog) (t wanted : TypeRef) : Bool :=
  t.answers wanted || c.implements t wanted

/-- the members declared for a type itself -/
def ownMembers (c : Catalog) (t : TypeRef) : List String :=
  (c.decl? t).elim [] fun d => d.members.toList

/-- the members of a type: its own, and those of every interface it has. For an interface these are the members that it
requires, for any type those that it provides. -/
def members (c : Catalog) (t : TypeRef) : SortedSet String :=
  .ofList (c.ownMembers t ++ (c.allInterfaces t).toList.flatMap c.ownMembers)

end Catalog

end MixinPlanner
