/-
The values of TOML that are written as words: truth values, numbers, dates and times.

A word ends where no character of a word follows; a date and a time of day may be two words with a blank between them.
A number with a fraction is told from an integer and no more, and of a date only that it is one: settings hold neither.
-/
import MixinPlanner.Json.Reading
import MixinPlanner.Text.Digits

namespace MixinPlanner.Toml

open Text

/-! ## Numbers -/

/-- digits with single underscores between them, without these -/
def plainDigits (isDigit : Char → Bool) : List Char → Option (List Char)
  | [] => none
  | [c] => if isDigit c then some [c] else none
  | c :: '_' :: rest => if isDigit c then (plainDigits isDigit rest).map (c :: ·) else none
  | c :: rest => if isDigit c then (plainDigits isDigit rest).map (c :: ·) else none

/-- the digits of a decimal integer, which has no leading zero -/
def decimalDigits (cs : List Char) : Option (List Char) :=
  (plainDigits Char.isDigit cs).filter fun ds => ds.length == 1 || ds.head? != some '0'

/-- an integer of 64 bits -/
def inRange (i : Int) : Option Int :=
  if -Int.pow 2 63 ≤ i ∧ i < Int.pow 2 63 then some i else none

/-- the value of digits in a base -/
def inBase (base : Nat) (cs : List Char) : Option Int :=
  (plainDigits (fun c => (hexValue c).any (· < base)) cs).map fun ds => (valueIn base ds : Int)

/-- an integer: in decimal with or without a sign, or without one in base sixteen, eight or two -/
def integer? (word : List Char) : Option Int := do
  match word with
  | '0' :: 'x' :: cs => inRange (← inBase 16 cs)
  | '0' :: 'o' :: cs => inRange (← inBase 8 cs)
  | '0' :: 'b' :: cs => inRange (← inBase 2 cs)
  | cs =>
    let (negative, cs) := readSign cs
    let n := digitsValue (← decimalDigits cs)
    inRange (if negative then -(n : Int) else n)

/-- what stands before the first of some characters, and what stands behind it, if it is there -/
def cutAt (isMark : Char → Bool) (cs : List Char) : List Char × Option (List Char) :=
  (cs.takeWhile fun c => !isMark c,
    match cs.dropWhile fun c => !isMark c with
    | [] => none
    | _ :: rest => some rest)

/-- a part of a number that may be absent -/
def part {α : Type} (read : List Char → Option α) : Option (List Char) → Option (Option α)
  | none => some none
  | some cs => (read cs).map some

/-- the value of an exponent -/
def exponent? (cs : List Char) : Option Int := do
  let (negative, cs) := readSign cs
  let n := digitsValue (← plainDigits Char.isDigit cs)
  return if negative then -(n : Int) else n

/-- whether a word is a number with a fraction or an exponent, infinity, or not a number. One that is too large is refused,
but not one that is too small. -/
def isReal (word : List Char) : Bool :=
  let (negative, cs) := readSign word
  if cs = ['i', 'n', 'f'] ∨ cs = ['n', 'a', 'n'] then true
  else
    let (mantissa, exponent) := cutAt (fun c => c == 'e' || c == 'E') cs
    let (whole, fraction) := cutAt (· == '.') mantissa
    if exponent.isNone ∧ fraction.isNone then false
    else
      match decimalDigits whole, part (plainDigits Char.isDigit) fraction, part exponent? exponent with
      | some ds, some fraction, some exponent =>
        let fs := fraction.getD []
        negative || Decimal.isFinite (digitsValue (ds ++ fs)) (exponent.getD 0 - fs.length)
      | _, _, _ => false

/-! ## Dates and times -/

/-- the value of a run of decimal digits, if it lies between two bounds -/
def between (low high : Nat) (ds : List Char) : Option Nat :=
  if ds.all Char.isDigit ∧ low ≤ digitsValue ds ∧ digitsValue ds ≤ high then some (digitsValue ds) else none

/-- the number of days in a month of the Gregorian calendar -/
def daysIn (year month : Nat) : Nat :=
  if month = 2 then
    if year % 4 = 0 ∧ (year % 100 ≠ 0 ∨ year % 400 = 0) then 29 else 28
  else if month = 4 ∨ month = 6 ∨ month = 9 ∨ month = 11 then 30
  else 31

/-- what follows a date -/
def afterDate : List Char → Option (List Char)
  | y :: y' :: y'' :: y''' :: '-' :: m :: m' :: '-' :: d :: d' :: rest => do
    let year ← between 0 9999 [y, y', y'', y''']
    let month ← between 1 12 [m, m']
    let _ ← between 1 (daysIn year month) [d, d']
    return rest
  | _ => none

/-- what follows a time of day. A minute may have a leap second. -/
def afterTime : List Char → Option (List Char)
  | h :: h' :: ':' :: m :: m' :: ':' :: s :: s' :: rest => do
    let _ ← between 0 23 [h, h']
    let _ ← between 0 59 [m, m']
    let _ ← between 0 60 [s, s']
    match rest with
    | '.' :: rest => (readDigits rest).map Prod.snd
    | rest => return rest
  | _ => none

/-- whether a text is an offset from universal time, or empty -/
def isOffset : List Char → Bool
  | [] | ['Z'] | ['z'] => true
  | [sign, h, h', ':', m, m'] =>
    (sign == '+' || sign == '-') && (between 0 23 [h, h']).isSome && (between 0 59 [m, m']).isSome
  | _ => false

/-- whether a word is a date, with or without a time of day after a T, or a time of day -/
def isMoment (word : List Char) : Bool :=
  match afterDate word with
  | some [] => true
  | some (mark :: time) => (mark == 'T' || mark == 't') && (afterTime time).any isOffset
  | none => afterTime word == some []

/-! ## Words -/

/-- the characters of words -/
def isWordChar (c : Char) : Bool :=
  c.isAlphanum || c == '+' || c == '-' || c == '_' || c == '.' || c == ':'

/-- the word at the front of a text, and what follows. A time of day after a date and a blank counts as if a T stood between
them. -/
def readWord (cs : List Char) : List Char × List Char :=
  let word := cs.takeWhile isWordChar
  match cs.dropWhile isWordChar with
  | ' ' :: c :: rest =>
    if c.isDigit ∧ afterDate word = some [] then
      (word ++ 'T' :: (c :: rest).takeWhile isWordChar, (c :: rest).dropWhile isWordChar)
    else (word, ' ' :: c :: rest)
  | rest => (word, rest)

/-- the name under which a date or time is held -/
def momentName : String := "$__toml_private_datetime"

/-- the value that a word writes -/
def scalar? (word : List Char) : Option Reading :=
  if word = ['t', 'r', 'u', 'e'] then some (.bool true)
  else if word = ['f', 'a', 'l', 's', 'e'] then some (.bool false)
  else
    match integer? word with
    | some i => some (.number (.int i))
    | none =>
      if isReal word then some (.number (.real 0 0))
      else if isMoment word then some (.object (.ofList [(momentName, .string (some (String.ofList word)))]))
      else none

example : integer? "-1_000".toList = some (-1000) ∧ integer? "0xff".toList = some 255 ∧ integer? "007".toList = none := by
  decide +kernel

example : isReal "6.5e-3".toList ∧ isReal "-inf".toList ∧ !isReal "1e400".toList ∧ !isReal "1.".toList := by
  decide +kernel

example : isMoment "2024-02-29T23:59:60.5+01:00".toList ∧ !isMoment "2023-02-29".toList := by decide +kernel

end MixinPlanner.Toml
