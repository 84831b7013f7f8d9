/-
Streams of records: one document on each line.

Lines end with a line feed, before which a carriage return may stand. Every line has to be UTF-8, also one that is passed
over because nothing but blanks is on it or because it begins with a number sign. The first line that cannot be read decides.
-/
import MixinPlanner.Json.Printer
import MixinPlanner.Text.Blank
import MixinPlanner.Wire.Decoder

namespace MixinPlanner.Stream

open Wire

/-- why a stream cannot be read -/
inductive Error where
  /-- a line is not UTF-8 -/
  | notText (line : Nat)
  /-- the document on a line is at fault -/
  | fault (line : Nat) (fault : Fault)
  /-- a type is declared again, and otherwise than before -/
  | conflictingType (line : Nat) (name : String)

/-- the message of an error -/
def Error.message : Error → String
  | notText line => "line " ++ toString line ++ ": I/O error: stream did not contain valid UTF-8"
  | fault line f => "line " ++ toString line ++ ": parse error: " ++ f.message
  | conflictingType line name =>
    "line " ++ toString line ++ ": parse error: conflicting type record for " ++ name

/-- the line that an error is on -/
def Error.line : Error → Nat
  | notText line | fault line _ | conflictingType line _ => line

/-- the lines of some bytes: cut at line feeds, and no line after the last of them -/
def cut : List UInt8 → List (List UInt8)
  | [] => []
  | b :: rest =>
    if b = 10 then [] :: cut rest
    else
      match cut rest with
      | [] => [[b]]
      | line :: lines => (b :: line) :: lines

/-- the text of some bytes, if they are UTF-8 -/
def textOf (bytes : List UInt8) : Option String := String.fromUTF8? ⟨bytes.toArray⟩

/-- whether a line holds no record: it is blank, or a comment -/
def isSkipped : List Char → Bool
  | [] => true
  | c :: _ => c == '#'

/-- the record on a line, if it holds one -/
def readLine {α : Type} (d : Decoder α) (number : Nat) (bytes : List UInt8) : Except Error (Option (Nat × α)) :=
  match textOf bytes with
  | none => .error (.notText number)
  | some line =>
    let content := Text.trimBlanks line.toList
    if isSkipped content then .ok none
    else
      match decode d (String.ofList content) with
      | .ok a => .ok (some (number, a))
      | .error f => .error (.fault number f)

/-- the records on lines from a number on -/
def readFrom {α : Type} (d : Decoder α) : Nat → List (List UInt8) → Except Error (List (Nat × α))
  | _, [] => .ok []
  | number, line :: lines => do
    let record ← readLine d number line
    let more ← readFrom d (number + 1) lines
    return record.toList ++ more

/-- the records of a stream with the numbers of their lines -/
def readRecords {α : Type} (d : Decoder α) (bytes : List UInt8) : Except Error (List (Nat × α)) :=
  readFrom d 1 (cut bytes)

/-- one compact document on each line -/
def writeRecords (records : List Json) : String :=
  String.ofList (records.flatMap fun j => j.chars ++ ['\n'])

end MixinPlanner.Stream
