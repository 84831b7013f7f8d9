/-
Digits: the numbers they write, and runs of them at the front of a text.
-/

namespace MixinPlanner.Text

/-- the value of a hexadecimal digit -/
def hexValue (c : Char) : Option Nat :=
  if c.isDigit then some (c.toNat - '0'.toNat)
  else if 'a' ≤ c ∧ c ≤ 'f' then some (c.toNat - 'a'.toNat + 10)
  else if 'A' ≤ c ∧ c ≤ 'F' then some (c.toNat - 'A'.toNat + 10)
  else none

/-- the number that digits write in a base of at most sixteen -/
def valueIn (base : Nat) (ds : List Char) : Nat :=
  ds.foldl (fun n d => base * n + (hexValue d).getD 0) 0

/-- the number that decimal digits write -/
def digitsValue (ds : List Char) : Nat := valueIn 10 ds

/-- the digits at the front of a text, of which there has to be one, and what follows -/
def readDigits (cs : List Char) : Option (List Char × List Char) :=
  match cs.takeWhile Char.isDigit with
  | [] => none
  | ds => some (ds, cs.dropWhile Char.isDigit)

/-- a sign, if there is one: whether it is a minus, and what follows -/
def readSign : List Char → Bool × List Char
  | '-' :: cs => (true, cs)
  | '+' :: cs => (false, cs)
  | cs => (false, cs)

example : digitsValue "1207".toList = 1207 ∧ valueIn 16 "fF".toList = 255 := by decide

end MixinPlanner.Text
