/-
Plan stores: plans as records, one on each line.

Plans are trusted without being resolved again, so each is checked as it is taken from a store: its schema is the one known
here, its hash is the one of its content, and it agrees with any other plan for its target.
-/
import MixinPlanner.Stream.Lines
import MixinPlanner.Wire.Plan

namespace MixinPlanner

/-- why a plan store cannot be trusted -/
inductive PlanStoreError where
  | stream (error : Stream.Error)
  | schema (line : Nat) (target : TypeRef) (found : Nat)
  | hash (line : Nat) (target : TypeRef) (stored computed : ContentHash)
  | conflict (conflict : PlanConflict)

/-- the message of an error -/
def PlanStoreError.message : PlanStoreError → String
  | stream e => e.message
  | schema line target found =>
    "line " ++ toString line ++ ": plan for " ++ target.text ++ " has unsupported schema " ++ toString found
  | hash line target stored computed =>
    "line " ++ toString line ++ ": plan for " ++ target.text ++ " has content hash " ++ stored.short ++
      " but its content hashes to " ++ computed.short
  | conflict k => k.message

namespace PlanSet

/-- one stored plan checked and taken into a set -/
def takeRecord (s : PlanSet) : Nat × Plan → Except PlanStoreError PlanSet
  | (line, p) =>
    if p.schema ≠ planSchema then .error (.schema line p.target p.schema)
    else if p.computeHash ≠ p.contentHash then .error (.hash line p.target p.contentHash p.computeHash)
    else (s.add p).mapError .conflict

/-- the plans of a store -/
def read (bytes : List UInt8) : Except PlanStoreError PlanSet :=
  match Stream.readRecords Plan.decode bytes with
  | .error e => .error (.stream e)
  | .ok records => records.foldlM takeRecord SortedBy.empty

/-- the store of some plans -/
def write (s : PlanSet) : String := Stream.writeRecords (s.toList.map Plan.toJson)

end PlanSet

end MixinPlanner
