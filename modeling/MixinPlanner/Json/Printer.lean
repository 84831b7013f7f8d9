/-
The two written forms of a JSON value: compact, without any space, and indented, with two spaces for every level and
empty arrays and objects closed at once.

A text is written between quotes. Quotes, backslashes and control characters are escaped, the common controls by their
letter and the others by four lower-case hexadecimal digits; everything else stands as it is.
-/
import MixinPlanner.Json.Value

namespace MixinPlanner.Json

/-- a hexadecimal digit in lower case -/
def hexDigit (n : Nat) : Char := Nat.digitChar (n % 16)

/-- one character of a text as it is written -/
def escapeChar (c : Char) : List Char :=
  if c = '"' then ['\\', '"']
  else if c = '\\' then ['\\', '\\']
  else if c = '\x08' then ['\\', 'b']
  else if c = '\t' then ['\\', 't']
  else if c = '\n' then ['\\', 'n']
  else if c = '\x0c' then ['\\', 'f']
  else if c = '\r' then ['\\', 'r']
  else if c.toNat < 0x20 then ['\\', 'u', '0', '0', hexDigit (c.toNat / 16), hexDigit c.toNat]
  else [c]

/-- a text between quotes -/
def stringChars (s : String) : List Char :=
  '"' :: (s.toList.flatMap escapeChar ++ ['"'])

/-! ## Compact form -/

mutual

/-- the characters of the compact form -/
def chars : Json → List Char
  | null => "null".toList
  | bool true => "true".toList
  | bool false => "false".toList
  | int i => (toString i).toList
  | string s => stringChars s
  | array [] => ['[', ']']
  | array (j :: rest) => '[' :: (chars j ++ itemsChars rest)
  | object [] => ['\x7b', '\x7d']
  | object ((k, j) :: rest) => '\x7b' :: (stringChars k ++ ':' :: (chars j ++ membersChars rest))

/-- the items after the first, with the closing bracket -/
def itemsChars : List Json → List Char
  | [] => [']']
  | j :: rest => ',' :: (chars j ++ itemsChars rest)

/-- the members after the first, with the closing brace -/
def membersChars : List (String × Json) → List Char
  | [] => ['\x7d']
  | (k, j) :: rest => ',' :: (stringChars k ++ ':' :: (chars j ++ membersChars rest))

end

/-- the compact form -/
def compact (j : Json) : String := String.ofList j.chars

/-! ## Indented form -/

/-- a new line at a level of indentation -/
def newLine (level : Nat) : List Char := '\n' :: List.replicate (2 * level) ' '

mutual

/-- the characters of the indented form at a level -/
def prettyChars (level : Nat) : Json → List Char
  | array (j :: rest) =>
    '[' :: (newLine (level + 1) ++ (prettyChars (level + 1) j ++ prettyItems level rest))
  | object ((k, j) :: rest) =>
    '\x7b' :: (newLine (level + 1) ++
      (stringChars k ++ ':' :: ' ' :: (prettyChars (level + 1) j ++ prettyMembers level rest)))
  | null => "null".toList
  | bool true => "true".toList
  | bool false => "false".toList
  | int i => (toString i).toList
  | string s => stringChars s
  | array [] => ['[', ']']
  | object [] => ['\x7b', '\x7d']

/-- the items after the first of an array at a level, with the closing bracket -/
def prettyItems (level : Nat) : List Json → List Char
  | [] => newLine level ++ [']']
  | j :: rest => ',' :: (newLine (level + 1) ++ (prettyChars (level + 1) j ++ prettyItems level rest))

/-- the members after the first of an object at a level, with the closing brace -/
def prettyMembers (level : Nat) : List (String × Json) → List Char
  | [] => newLine level ++ ['\x7d']
  | (k, j) :: rest =>
    ',' :: (newLine (level + 1) ++
      (stringChars k ++ ':' :: ' ' :: (prettyChars (level + 1) j ++ prettyMembers level rest)))

end

/-- the indented form -/
def pretty (j : Json) : String := String.ofList (prettyChars 0 j)

end MixinPlanner.Json
