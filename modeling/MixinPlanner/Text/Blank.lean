/-
Blank space: the characters of the Unicode property White_Space.

One set serves the whole library. Blanks may stand between the tokens of a written type reference, and they are cut
from both ends of a line before it is read as a record.
-/

namespace MixinPlanner.Text

/-- the characters with the property White_Space -/
def isBlank (c : Char) : Bool :=
  let n := c.toNat
  (9 ≤ n && n ≤ 13) || n == 0x20 || n == 0x85 || n == 0xa0 || n == 0x1680 || (0x2000 ≤ n && n ≤ 0x200a) ||
    n == 0x2028 || n == 0x2029 || n == 0x202f || n == 0x205f || n == 0x3000

/-- what is left of a text once its leading blanks are cut -/
def skipBlanks (cs : List Char) : List Char :=
  cs.dropWhile isBlank

/-- a text without the blanks at its two ends -/
def trimBlanks (cs : List Char) : List Char :=
  (skipBlanks (skipBlanks cs).reverse).reverse

example : trimBlanks " \u00a0a b\u3000".toList = "a b".toList := by decide

end MixinPlanner.Text
