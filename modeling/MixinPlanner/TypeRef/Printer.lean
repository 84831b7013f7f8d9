/-
The written form of a type reference: `Name<Argument, ?Parameter>`, arguments between angle brackets, a comma and one
space between two of them, a question mark before an open parameter. A reference without arguments is its name.
-/
import MixinPlanner.TypeRef.Basic

namespace MixinPlanner

mutual

/-- the characters of a written reference -/
def TypeRef.chars : TypeRef → List Char
  | .mk name [] => name.toList
  | .mk name (a :: rest) => name.toList ++ '<' :: (TypeArg.chars a ++ TypeArg.charsRest rest)

/-- the characters of the arguments after the first, with the closing bracket -/
def TypeArg.charsRest : List TypeArg → List Char
  | [] => ['>']
  | a :: rest => ',' :: ' ' :: (TypeArg.chars a ++ TypeArg.charsRest rest)

/-- the characters of one argument -/
def TypeArg.chars : TypeArg → List Char
  | .param p => '?' :: p.toList
  | .closed t => TypeRef.chars t

end

/-- the text of a reference -/
def TypeRef.text (t : TypeRef) : String := String.ofList t.chars

instance : ToString TypeRef := ⟨TypeRef.text⟩

/-- the texts of several references, joined -/
def TypeRef.joined (separator : String) (ts : List TypeRef) : String :=
  separator.intercalate (ts.map TypeRef.text)

end MixinPlanner
