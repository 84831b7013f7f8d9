/-
JSON values as they are written: numbers are integers, and the members of an object keep the order they are given in.
-/
import MixinPlanner.SortedBy

namespace MixinPlanner

/-- a JSON value -/
inductive Json where
  | null
  | bool (b : Bool)
  | int (i : Int)
  | string (s : String)
  | array (items : List Json)
  | object (members : List (String × Json))
  deriving Inhabited

namespace Json

/-- a natural number -/
def nat (n : Nat) : Json := int n

/-- an array of texts -/
def strings (ss : List String) : Json := array (ss.map string)

mutual

/-- the value with the members of every object, at any depth, sorted by their keys; of two with one key the later stands -/
def sortKeys : Json → Json
  | array items => array (sortItems items)
  | object members => object (SortedBy.ofList (sortMembers members) : SortedTable String Json).toList
  | j => j

/-- sorting within every item -/
def sortItems : List Json → List Json
  | [] => []
  | j :: rest => sortKeys j :: sortItems rest

/-- sorting within every member -/
def sortMembers : List (String × Json) → List (String × Json)
  | [] => []
  | (k, j) :: rest => (k, sortKeys j) :: sortMembers rest

end

end Json

end MixinPlanner
