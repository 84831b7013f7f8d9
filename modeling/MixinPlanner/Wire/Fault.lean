/-
What can be wrong with a document that is read as a value of the library.
-/
import MixinPlanner.Text.Quoted
import MixinPlanner.TypeRef.Parser
import MixinPlanner.TypeRef.Printer

namespace MixinPlanner.Wire

/-- the first fault of a document -/
inductive Fault where
  /-- the text is not JSON -/
  | malformed
  /-- a value has another shape, or a number is out of its range -/
  | mismatch
  | missingField (name : String)
  | duplicateField (name : String)
  | unknownField (name : String) (known : List String)
  | unknownVariant (name : String) (known : List String)
  | badType (error : TypeRef.ParseError)
  | selfDependency (mixin : TypeRef)
  /-- a catalog entry stands under another name than it declares -/
  | misnamedEntry (key name : String)

/-- a name in messages -/
def ticked (name : String) : String := "`" ++ name ++ "`"

/-- the alternatives that a message names: two with `or` between them, more as a list -/
def oneOf : List String → String
  | [] => "nothing"
  | [a] => ticked a
  | [a, b] => ticked a ++ " or " ++ ticked b
  | names => "one of " ++ ", ".intercalate (names.map ticked)

/-- the message of a fault -/
def Fault.message : Fault → String
  | malformed => "invalid JSON"
  | mismatch => "invalid type"
  | missingField name => "missing field " ++ ticked name
  | duplicateField name => "duplicate field " ++ ticked name
  | unknownField name known => "unknown field " ++ ticked name ++ ", expected " ++ oneOf known
  | unknownVariant name known => "unknown variant " ++ ticked name ++ ", expected " ++ oneOf known
  | badType error => error.message
  | selfDependency mixin => "mixin " ++ mixin.text ++ " declares a dependency on itself"
  | misnamedEntry key name => "catalog entry " ++ Text.quoted key ++ " declares type " ++ Text.quoted name

end MixinPlanner.Wire
