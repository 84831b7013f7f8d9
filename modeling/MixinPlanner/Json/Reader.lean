/-
Reading a text as JSON.

`Reading.ofText` yields the reading of the value that the text begins with, and whether anything but blanks follows it.
Containers may be nested to a depth of 127; deeper ones are read, and marked.
-/
import MixinPlanner.Json.Reading
import MixinPlanner.Text.Digits

namespace MixinPlanner.Reading

open Text

/-- the blanks between the tokens of a document -/
def isSpace (c : Char) : Bool :=
  c == ' ' || c == '\n' || c == '\t' || c == '\r'

/-- a text without the blanks at its front -/
def skipSpaces (cs : List Char) : List Char := cs.dropWhile isSpace

/-- the deepest nesting of containers -/
def maxDepth : Nat := 127

/-! ## Texts -/

/-- four hexadecimal digits at the front of a text: the number, and what follows -/
def hexUnit : List Char → Option (Nat × List Char)
  | a :: b :: c :: d :: rest => do
    return (((← hexValue a) * 16 + (← hexValue b)) * 256 + ((← hexValue c) * 16 + (← hexValue d)), rest)
  | _ => none

/-- the character that a letter after a backslash stands for -/
def escaped : Char → Option Char
  | '"' => some '"'
  | '\\' => some '\\'
  | '/' => some '/'
  | 'b' => some '\x08'
  | 'f' => some '\x0c'
  | 'n' => some '\n'
  | 'r' => some '\r'
  | 't' => some '\t'
  | _ => none

/-- whether a number is the first unit of a surrogate pair -/
def isHighUnit (n : Nat) : Bool := 0xd800 ≤ n && n < 0xdc00

/-- whether a number is the second unit of a surrogate pair -/
def isLowUnit (n : Nat) : Bool := 0xdc00 ≤ n && n < 0xe000

/-- the low unit that an escape at the front of a text names, and what follows it -/
def lowUnit : List Char → Option (Nat × List Char)
  | '\\' :: 'u' :: rest => (hexUnit rest).filter fun u => isLowUnit u.1
  | _ => none

/-- a character escaped by number, after the `u`: the character, none for half of a surrogate pair, and what follows -/
def readUnit (cs : List Char) : Option (Option Char × List Char) := do
  let (n, rest) ← hexUnit cs
  if isHighUnit n then
    match lowUnit rest with
    | some (m, rest) => return (some (Char.ofNat (0x10000 + (n - 0xd800) * 0x400 + (m - 0xdc00))), rest)
    | none => return (none, rest)
  else if isLowUnit n then return (none, rest)
  else return (some (Char.ofNat n), rest)

/-- the characters up to the closing quote, none if an escape names half of a surrogate pair, and what follows -/
def readChars : Nat → List Char → Option (Option (List Char) × List Char)
  | 0, _ => none
  | _ + 1, [] => none
  | fuel + 1, c :: cs =>
    if c = '"' then some (some [], cs)
    else do
      let (here, rest) ←
        if c = '\\' then
          match cs with
          | 'u' :: rest => readUnit rest
          | e :: rest => (escaped e).map fun x => (some x, rest)
          | [] => none
        else if c.toNat < 0x20 then none
        else some (some c, cs)
      let (more, rest) ← readChars fuel rest
      return (here.bind fun x => more.map (x :: ·), rest)

/-- a text after its opening quote -/
def readText (cs : List Char) : Option (Option String × List Char) :=
  (readChars (cs.length + 1) cs).map fun r => (r.1.map String.ofList, r.2)

/-! ## Numbers -/

/-- the digits after a decimal point, if there is one -/
def readFraction : List Char → Option (Option (List Char) × List Char)
  | '.' :: cs => (readDigits cs).map fun r => (some r.1, r.2)
  | cs => some (none, cs)

/-- the exponent, if there is one -/
def readExponent (cs : List Char) : Option (Option Int × List Char) :=
  match cs with
  | [] => some (none, [])
  | c :: rest =>
    if c = 'e' ∨ c = 'E' then
      let (negative, rest) := readSign rest
      (readDigits rest).map fun r => (some (if negative then -(digitsValue r.1 : Int) else digitsValue r.1), r.2)
    else some (none, cs)

/-- digits put behind a number as long as it stays below `2 ^ 64`: the number, and how many of them were -/
def appendDigits : Nat → List Char → Nat × Nat
  | n, [] => (n, 0)
  | n, d :: ds =>
    let longer := 10 * n + digitsValue [d]
    if longer < Nat.pow 2 64 then
      let (m, count) := appendDigits longer ds
      (m, count + 1)
    else (n, 0)

/-- the number of digits before and after a point, and of an exponent. Only the digits that have their place in a significand
of 64 bits count; each one left out before the point raises the exponent by one. -/
def realOf (int frac : List Char) (exponent : Int) : Numeral :=
  let (s, kept) := appendDigits 0 int
  let (s, places) := appendDigits s frac
  .real s (exponent + (int.length - kept) - places)

/-- the number of digits without a point or an exponent: an integer, unless it is minus zero or has more than 64 bits -/
def wholeOf (negative : Bool) (int : List Char) : Numeral :=
  let n := digitsValue int
  if negative then if 0 < n ∧ n ≤ Nat.pow 2 63 then .int (-n) else realOf int [] 0
  else if n < Nat.pow 2 64 then .int n
  else realOf int [] 0

/-- a number at the front of a text. The integer part has no leading zero. -/
def readNumber (cs : List Char) : Option (Numeral × List Char) := do
  let (negative, cs) := match cs with
    | '-' :: rest => (true, rest)
    | cs => (false, cs)
  let (int, cs) ← readDigits cs
  if int.length > 1 ∧ int.head? = some '0' then none
  let (frac, cs) ← readFraction cs
  let (exp, cs) ← readExponent cs
  match frac, exp with
  | none, none => return (wholeOf negative int, cs)
  | _, _ => return (realOf int (frac.getD []) (exp.getD 0), cs)

/-! ## Values -/

/-- a container at a level of nesting, marked if the level is beyond the limit -/
def atLevel (level : Nat) (r : Reading) : Reading :=
  if level ≤ maxDepth then r else deep r

mutual

/-- a value within containers of a number of levels, and what follows it if it is well formed -/
def readValue : Nat → Nat → List Char → Reading × Option (List Char)
  | 0, _, _ => (broken, none)
  | fuel + 1, level, cs =>
    match skipSpaces cs with
    | [] => (broken, none)
    | '"' :: rest =>
      match readText rest with
      | some (s, rest) => (string s, some rest)
      | none => (broken, none)
    | '[' :: rest =>
      let (items, rest) := readItems fuel (level + 1) true rest
      (atLevel (level + 1) (array items), rest)
    | '\x7b' :: rest =>
      let (members, rest) := readMembers fuel (level + 1) true rest
      (atLevel (level + 1) (object members), rest)
    | 'n' :: 'u' :: 'l' :: 'l' :: rest => (null, some rest)
    | 't' :: 'r' :: 'u' :: 'e' :: rest => (bool true, some rest)
    | 'f' :: 'a' :: 'l' :: 's' :: 'e' :: rest => (bool false, some rest)
    | cs =>
      match readNumber cs with
      | some (n, rest) => (number n, some rest)
      | none => (broken, none)

/-- the items of an array from its first or from the one after a comma, and what follows the closing bracket -/
def readItems : Nat → Nat → Bool → List Char → Items × Option (List Char)
  | 0, _, _, _ => (.broken, none)
  | fuel + 1, level, first, cs =>
    match skipSpaces cs with
    | ']' :: rest => if first then (.closed, some rest) else (.broken, none)
    | cs =>
      match readValue fuel level cs with
      | (r, none) => (.cons r .broken, none)
      | (r, some rest) =>
        match skipSpaces rest with
        | ',' :: rest =>
          let (items, rest) := readItems fuel level false rest
          (.cons r items, rest)
        | ']' :: rest => (.cons r .closed, some rest)
        | _ => (.cons r .broken, none)

/-- the members of an object from its first or from the one after a comma, and what follows the closing brace -/
def readMembers : Nat → Nat → Bool → List Char → Members × Option (List Char)
  | 0, _, _, _ => (.broken, none)
  | fuel + 1, level, first, cs =>
    match skipSpaces cs with
    | '\x7d' :: rest => if first then (.closed, some rest) else (.broken, none)
    | '"' :: rest =>
      match readText rest with
      | none => (.broken, none)
      | some (key, rest) =>
        match skipSpaces rest with
        | ':' :: rest =>
          match readValue fuel level rest with
          | (r, none) => (.cons key r .broken, none)
          | (r, some rest) =>
            match skipSpaces rest with
            | ',' :: rest =>
              let (members, rest) := readMembers fuel level false rest
              (.cons key r members, rest)
            | '\x7d' :: rest => (.cons key r .closed, some rest)
            | _ => (.cons key r .broken, none)
        | _ => (.cons key .broken .broken, none)
    | _ => (.broken, none)

end

/-- the reading of the value at the front of a text, and whether only blanks follow it -/
def ofText (s : String) : Reading × Bool :=
  let cs := s.toList
  match readValue (2 * cs.length + 1) 0 cs with
  | (r, some rest) => (r, (skipSpaces rest).isEmpty)
  | (r, none) => (r, false)

end MixinPlanner.Reading
