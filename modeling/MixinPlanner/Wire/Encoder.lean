/-
Writing values into documents: the small pieces from which the written form of every type is put together. Members stand in
the order of a type's fields, and some are left out when they say nothing.
-/
import MixinPlanner.Json.Printer
import MixinPlanner.SortedBy
import MixinPlanner.TypeRef.Printer

namespace MixinPlanner.Wire

/-- members of an object -/
abbrev MemberList := List (String × Json)

/-- a member that is always written -/
def member (name : String) (j : Json) : MemberList := [(name, j)]

/-- a member that is left out when its list is empty -/
def memberOfList (name : String) (items : List Json) : MemberList :=
  if items.isEmpty then [] else [(name, .array items)]

/-- a text that is left out when there is none -/
def memberOfText (name : String) : Option String → MemberList
  | none => []
  | some s => [(name, .string s)]

/-- a type reference, written as text -/
def typeJson (t : TypeRef) : Json := .string t.text

/-- several type references -/
def typesJson (ts : List TypeRef) : List Json := ts.map typeJson

end MixinPlanner.Wire
