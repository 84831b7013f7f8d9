/-
Quoted text, as messages show it: the text between double quotes, with a backslash before quotes and backslashes, the
usual letters for tab, line feed, carriage return and NUL, and every other invisible character as its number in braces.
-/
import MixinPlanner.Text.Visible

namespace MixinPlanner.Text

/-- the lower-case hexadecimal digits of a number, without leading zeros -/
def hexDigits (n : Nat) : List Char :=
  Nat.toDigits 16 n

/-- one character inside a quoted text -/
def quoteChar (c : Char) : List Char :=
  if c = '\x00' then ['\\', '0']
  else if c = '\t' then ['\\', 't']
  else if c = '\r' then ['\\', 'r']
  else if c = '\n' then ['\\', 'n']
  else if c = '\\' then ['\\', '\\']
  else if c = '"' then ['\\', '"']
  else if isVisible c then [c]
  else ['\\', 'u', '\x7b'] ++ hexDigits c.toNat ++ ['\x7d']

/-- a text between quotes, with everything that would not show written out -/
def quoted (s : String) : String :=
  String.ofList ('"' :: s.toList.flatMap quoteChar ++ ['"'])

end MixinPlanner.Text
