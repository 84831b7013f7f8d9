/-
The lines of a TOML document: gaps within a line, ends of lines, and comments.
-/

namespace MixinPlanner.Toml

/-- the blanks within a line -/
def isGap (c : Char) : Bool := c == ' ' || c == '\t'

/-- the characters that comments and quoted texts may hold -/
def isPlain (c : Char) : Bool := c == '\t' || (0x20 ≤ c.toNat && c.toNat != 0x7f)

/-- a text without the gap at its front -/
def skipGap (cs : List Char) : List Char := cs.dropWhile isGap

/-- what follows the end of a line, if one stands at the front -/
def afterLine : List Char → Option (List Char)
  | '\n' :: rest => some rest
  | '\r' :: '\n' :: rest => some rest
  | _ => none

/-- whether the end of a line begins with this character of a text -/
def beginsLineEnd (c : Char) (rest : List Char) : Bool :=
  c == '\n' || (c == '\r' && rest.head? == some '\n')

/-- a text without the gaps and ends of lines at its front -/
def skipBreaks : List Char → List Char
  | [] => []
  | c :: cs => if isGap c || beginsLineEnd c cs then skipBreaks cs else c :: cs

/-- a text without the gaps, ends of lines and comments at its front, or without the rest of the comment that it begins
within -/
def skipLines : Bool → List Char → List Char
  | _, [] => []
  | inComment, c :: cs =>
    if beginsLineEnd c cs then skipLines false cs
    else if inComment then if isPlain c then skipLines true cs else c :: cs
    else if isGap c then skipLines false cs
    else if c = '#' then skipLines true cs
    else c :: cs

/-- what follows a line of which only a gap and a comment may be left -/
def closeLine (cs : List Char) : Option (List Char) :=
  let rest :=
    match skipGap cs with
    | '#' :: rest => rest.dropWhile isPlain
    | rest => rest
  if rest.isEmpty then some [] else afterLine rest

example : closeLine " # end\r\nx".toList = some ['x'] ∧ closeLine " x".toList = none := by decide

end MixinPlanner.Toml
