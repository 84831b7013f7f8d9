/-
Reading a type reference from text.

    Input = blank* Type blank*
    Type  = Name [ blank* '<' blank* Arg blank* { ',' blank* Arg blank* } '>' ]
    Arg   = '?' Name | Type

A name is scanned as the longest run of alphanumeric characters, underscores, dots and plus signs, and only then checked
for its spelling, so a run with a foreign letter or a leading digit is reported whole. Any other fault names the first
character that cannot stand where it does, with its offset in bytes, or says that the text ended too early.
-/
import MixinPlanner.Text.Alphanumeric
import MixinPlanner.Text.Blank
import MixinPlanner.TypeRef.Basic

namespace MixinPlanner

open Text

namespace TypeRef

/-- why a text is not a type reference -/
inductive ParseError where
  | empty
  | badName (run : String)
  | unexpected (input : String) (offset : Nat) (found : Char)
  | ended (input : String)
  deriving DecidableEq, Repr

/-- the message of a parse error -/
def ParseError.message : ParseError → String
  | .empty => "empty type reference"
  | .badName run => "invalid type name `" ++ run ++ "`"
  | .unexpected input offset found =>
    "unexpected `" ++ found.toString ++ "` at offset " ++ toString offset ++ " in `" ++ input ++ "`"
  | .ended input => "unexpected end of type reference `" ++ input ++ "`"

namespace Parser

/-- where reading stopped: at a misspelled name, before a rest of the text, or at its end -/
inductive Stop where
  | badName (run : String)
  | before (rest : List Char) (found : Char)
  | ended
  deriving DecidableEq, Repr

/-- characters that a run taken for a name extends over -/
def isNameRun (c : Char) : Bool :=
  isAlphanumeric c || c == '_' || c == '.' || c == '+'

/-- stopping where nothing fits: before the next character, or at the end -/
def stopAt : List Char → Stop
  | [] => .ended
  | c :: rest => .before (c :: rest) c

/-- a name at the front of a text, and what follows it -/
def readName (cs : List Char) : Except Stop (String × List Char) :=
  match cs.takeWhile isNameRun with
  | [] => .error (stopAt cs)
  | run =>
    if isName (String.ofList run) then .ok (String.ofList run, cs.dropWhile isNameRun)
    else .error (.badName (String.ofList run))

mutual

/-- a type at the front of a text, and what follows it and its blanks -/
def readType : Nat → List Char → Except Stop (TypeRef × List Char)
  | 0, _ => .error .ended
  | fuel + 1, cs => do
    let (name, rest) ← readName cs
    match skipBlanks rest with
    | '<' :: inner => do
      let (args, rest) ← readArgs fuel inner
      return (mk name args, rest)
    | rest => return (mk name [], rest)

/-- the arguments up to the closing bracket, and what follows it -/
def readArgs : Nat → List Char → Except Stop (List TypeArg × List Char)
  | 0, _ => .error .ended
  | fuel + 1, cs => do
    let (arg, rest) ←
      match skipBlanks cs with
      | '?' :: rest => do
        let (name, rest) ← readName rest
        pure (TypeArg.param name, rest)
      | cs => do
        let (t, rest) ← readType fuel cs
        pure (TypeArg.closed t, rest)
    match skipBlanks rest with
    | ',' :: more => do
      let (args, rest) ← readArgs fuel more
      return (arg :: args, rest)
    | '>' :: rest => return ([arg], rest)
    | rest => .error (stopAt rest)

end

/-- the error of a stop in a given input; an offset counts the bytes before the stop -/
def Stop.error (input : String) : Stop → ParseError
  | .badName run => .badName run
  | .before rest found => .unexpected input (input.utf8ByteSize - (String.ofList rest).utf8ByteSize) found
  | .ended => .ended input

end Parser

/-- the reference that a text writes. The bound on the nesting is the length of the text, which no nesting exceeds. -/
def parse (input : String) : Except ParseError TypeRef :=
  match skipBlanks input.toList with
  | [] => .error .empty
  | cs =>
    match Parser.readType (cs.length + 1) cs with
    | .error stop => .error (stop.error input)
    | .ok (t, rest) =>
      match skipBlanks rest with
      | [] => .ok t
      | c :: rest => .error ((Parser.Stop.before (c :: rest) c).error input)

/-- a reference without arguments, if the text is spelled as a name -/
def ofName (name : String) : Except ParseError TypeRef :=
  if isName name then .ok (mk name []) else .error (.badName name)

end TypeRef

end MixinPlanner
