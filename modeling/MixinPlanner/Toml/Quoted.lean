/-
Quoted texts of TOML: on one line or, in three quotes, on many; with escapes in double quotes, and as they stand in single
ones.
-/
import MixinPlanner.Text.Digits
import MixinPlanner.Toml.Line

namespace MixinPlanner.Toml

/-- the character that a number of hexadecimal digits names, and what follows -/
def readCode (count : Nat) (cs : List Char) : Option (Char × List Char) :=
  let digits := cs.take count
  let n := Text.valueIn 16 digits
  if digits.length = count ∧ digits.all (fun d => (Text.hexValue d).isSome) ∧ n.isValidChar then
    some (Char.ofNat n, cs.drop count)
  else none

/-- the character that an escape stands for, after its backslash, and what follows -/
def readEscape : List Char → Option (Char × List Char)
  | '"' :: rest => some ('"', rest)
  | '\\' :: rest => some ('\\', rest)
  | 'b' :: rest => some ('\x08', rest)
  | 't' :: rest => some ('\t', rest)
  | 'n' :: rest => some ('\n', rest)
  | 'f' :: rest => some ('\x0c', rest)
  | 'r' :: rest => some ('\r', rest)
  | 'u' :: rest => readCode 4 rest
  | 'U' :: rest => readCode 8 rest
  | _ => none

/-- whether a backslash begins an escape within these quotes -/
def hasEscapes (quote : Char) : Bool := quote == '"'

/-- the characters of a text on one line up to its closing quote, and what follows -/
def readShort (quote : Char) : Nat → List Char → Option (List Char × List Char)
  | 0, _ | _, [] => none
  | fuel + 1, c :: cs =>
    if c = quote then some ([], cs)
    else do
      let (x, rest) ←
        if c = '\\' ∧ hasEscapes quote then readEscape cs
        else if isPlain c then some (c, cs)
        else none
      let (more, rest) ← readShort quote fuel rest
      return (x :: more, rest)

/-- the up to two quotes that belong to a text although they touch the closing three, and what follows -/
def readLastQuotes (quote : Char) (cs : List Char) : List Char × List Char :=
  let own := (cs.take 2).takeWhile (· == quote)
  (own, cs.drop own.length)

/-- the characters of a text on many lines up to its closing quotes, and what follows. A backslash at the end of a line
takes all blanks up to the next character away. -/
def readLong (quote : Char) : Nat → List Char → Option (List Char × List Char)
  | 0, _ | _, [] => none
  | fuel + 1, c :: cs =>
    if c = quote ∧ cs.take 2 = [quote, quote] then some (readLastQuotes quote (cs.drop 2))
    else if c = '\\' ∧ hasEscapes quote then
      match afterLine (skipGap cs) with
      | some rest => readLong quote fuel (skipBreaks rest)
      | none => do
        let (x, rest) ← readEscape cs
        let (more, rest) ← readLong quote fuel rest
        return (x :: more, rest)
    else
      match afterLine (c :: cs) with
      | some rest => (readLong quote fuel rest).map fun r => ('\n' :: r.1, r.2)
      | none => if isPlain c then (readLong quote fuel cs).map fun r => (c :: r.1, r.2) else none

/-- a text on one line, after its opening quote -/
def readLine (quote : Char) (cs : List Char) : Option (String × List Char) :=
  (readShort quote (cs.length + 1) cs).map fun r => (String.ofList r.1, r.2)

/-- a text after the first of its opening quotes. If it is on many lines, an end of line right after the opening quotes does
not belong to it. -/
def readQuoted (quote : Char) (cs : List Char) : Option (String × List Char) :=
  if cs.take 2 = [quote, quote] then
    let body := cs.drop 2
    let body := (afterLine body).getD body
    (readLong quote (body.length + 1) body).map fun r => (String.ofList r.1, r.2)
  else readLine quote cs

example : readQuoted '"' "a\\u00e9\" x".toList = some ("aé", [' ', 'x']) := by decide +kernel

example : readQuoted '\'' "''\n1'2''\\''''',".toList = some ("1'2''\\''", [',']) := by decide +kernel

end MixinPlanner.Toml
