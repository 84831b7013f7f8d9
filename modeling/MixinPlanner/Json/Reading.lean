/-
What reading a text as JSON yields: the document as far as the text is one.

A reader of values takes faults in the order of the text: an unknown name that stands before a missing bracket is what is
reported. So a text is not accepted or refused as a whole. Its reading is a tree that ends in `broken` where the text
stops being JSON, and whoever takes the tree apart meets that place only if nothing before it was at fault.

Three kinds of faults are kept for later, because a part of a document that nobody asks for may have them: a text that
names half of a surrogate pair, a number beyond double precision, and containers nested too deeply.
-/
import MixinPlanner.Decimal
import MixinPlanner.Json.Value

namespace MixinPlanner

/-- a number as it is written: an integer of 64 bits, or a significand of as many bits times a power of ten. Nothing is kept
of the sign of the latter. -/
inductive Numeral where
  | int (i : Int)
  | real (significand : Nat) (exponent : Int)
  deriving DecidableEq, Repr, Inhabited

namespace Numeral

/-- whether a number is finite in double precision, its significand and its power of ten both rounded first -/
def isFinite : Numeral → Bool
  | int _ => true
  | real s e => Decimal.isFiniteByFactors s e

/-- the integer that a number is, if it is written as one -/
def toInt? : Numeral → Option Int
  | int i => some i
  | real .. => none

end Numeral

mutual

/-- a document as far as it is well formed -/
inductive Reading where
  | null
  | bool (b : Bool)
  | number (n : Numeral)
  /-- a text; none if it names half of a surrogate pair -/
  | string (s : Option String)
  | array (items : Items)
  | object (members : Members)
  /-- an array or object nested beyond the limit -/
  | deep (container : Reading)
  /-- the text stops being JSON here -/
  | broken

/-- the items of an array up to its closing bracket, or up to where the text breaks -/
inductive Items where
  | closed
  | broken
  | cons (item : Reading) (rest : Items)

/-- the members of an object up to its closing brace, or up to where the text breaks -/
inductive Members where
  | closed
  | broken
  | cons (key : Option String) (value : Reading) (rest : Members)

end

instance : Inhabited Reading := ⟨.broken⟩

namespace Reading

mutual

/-- whether nothing at all is wrong within: the whole part can be held as a value -/
def isSound : Reading → Bool
  | null | bool _ => true
  | number n => n.isFinite
  | string s => s.isSome
  | array items => soundItems items
  | object members => soundMembers members
  | deep _ | broken => false

/-- whether the items are closed and each is sound -/
def soundItems : Items → Bool
  | .closed => true
  | .broken => false
  | .cons r rest => isSound r && soundItems rest

/-- whether the members are closed and each is sound -/
def soundMembers : Members → Bool
  | .closed => true
  | .broken => false
  | .cons k r rest => k.isSome && isSound r && soundMembers rest

end

mutual

/-- whether the part is well formed, so that it can be passed over -/
def isWellFormed : Reading → Bool
  | null | bool _ | number _ | string _ => true
  | array items => wellFormedItems items
  | object members => wellFormedMembers members
  | deep r => isWellFormed r
  | broken => false

/-- whether the items are closed and each is well formed -/
def wellFormedItems : Items → Bool
  | .closed => true
  | .broken => false
  | .cons r rest => isWellFormed r && wellFormedItems rest

/-- whether the members are closed and each is well formed -/
def wellFormedMembers : Members → Bool
  | .closed => true
  | .broken => false
  | .cons _ r rest => isWellFormed r && wellFormedMembers rest

end

mutual

/-- the reading of a value: nothing is broken in it -/
def ofJson : Json → Reading
  | .null => null
  | .bool b => bool b
  | .int i => number (.int i)
  | .string s => string (some s)
  | .array items => array (ofItems items)
  | .object members => object (ofMembers members)

/-- the reading of items -/
def ofItems : List Json → Items
  | [] => .closed
  | j :: rest => .cons (ofJson j) (ofItems rest)

/-- the reading of members -/
def ofMembers : List (String × Json) → Members
  | [] => .closed
  | (k, j) :: rest => .cons (some k) (ofJson j) (ofMembers rest)

end

mutual

/-- the value that a reading holds, with the members of objects sorted, if it is sound and its numbers are integers -/
def toJson? : Reading → Option Json
  | null => some .null
  | bool b => some (.bool b)
  | number n => n.toInt?.map .int
  | string s => s.map .string
  | array items => (itemsJson? items).map .array
  | object members =>
    (membersJson? members).map fun ms => .object (SortedBy.ofList ms : SortedTable String Json).toList
  | deep _ | broken => none

/-- the values of items -/
def itemsJson? : Items → Option (List Json)
  | .closed => some []
  | .broken => none
  | .cons r rest => do
    let j ← toJson? r
    return j :: (← itemsJson? rest)

/-- the values of members -/
def membersJson? : Members → Option (List (String × Json))
  | .closed => some []
  | .broken | .cons none _ _ => none
  | .cons (some k) r rest => do
    let j ← toJson? r
    return (k, j) :: (← membersJson? rest)

end

end Reading

/-- the items of a list, closed -/
def Items.ofList : List Reading → Items
  | [] => .closed
  | r :: rest => .cons r (ofList rest)

/-- the items up to the end, and whether it is the closing bracket -/
def Items.split : Items → List Reading × Bool
  | .closed => ([], true)
  | .broken => ([], false)
  | .cons r rest => (r :: rest.split.1, rest.split.2)

/-- the members of a list, closed -/
def Members.ofList : List (String × Reading) → Members
  | [] => .closed
  | (k, r) :: rest => .cons (some k) r (ofList rest)

/-- the members up to the end, and whether it is the closing brace. A key that names half of a surrogate pair breaks the
members off. -/
def Members.split : Members → List (String × Reading) × Bool
  | .closed => ([], true)
  | .broken => ([], false)
  | .cons none _ _ => ([], false)
  | .cons (some k) r rest => ((k, r) :: rest.split.1, rest.split.2)

end MixinPlanner
