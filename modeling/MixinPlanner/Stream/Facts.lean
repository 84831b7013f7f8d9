/-
Fact streams: a configuration as records, one on each line.

A record declares a type, or states a fact about a target. All lines are read before any record counts. A type may be declared
again in the same words; the facts of a target keep the order of their lines.
-/
import MixinPlanner.Stream.Lines
import MixinPlanner.Wire.Batch

namespace MixinPlanner

open Wire

/-- one record of a fact stream -/
inductive FactRecord where
  | type (decl : TypeDecl)
  | fact (target : TypeRef) (fact : Fact)
  deriving DecidableEq

namespace FactRecord

/-- a record as a value -/
def toJson : FactRecord → Json
  | type d => .object (member "type" (.string "type") ++ d.toMembers)
  | fact t (.mixin f) => .object (member "type" (.string "mixin") ++ member "target" (typeJson t) ++ f.toMembers)
  | fact t (.completeInterface f) =>
    .object (member "type" (.string "complete_interface") ++ member "target" (typeJson t) ++ f.toMembers)

/-- a record in a document -/
def decode : Decoder FactRecord :=
  tagged "type"
    [("type", fun src r => (TypeDecl.decode src r).map .type),
     ("mixin", (Record.field "target" typeRef).alongside fun t src r =>
        (MixinFact.decode src r).map fun f => .fact t (.mixin f)),
     ("complete_interface", (Record.field "target" typeRef).alongside fun t src r =>
        (CompleteInterfaceFact.decode src r).map fun f => .fact t (.completeInterface f))]

end FactRecord

namespace Configuration

/-- one record taken into a configuration -/
def takeRecord (c : Configuration) : Nat × FactRecord → Except Stream.Error Configuration
  | (line, .type d) =>
    match c.catalog.find? d.name with
    | some known => if known = d then .ok c else .error (.conflictingType line d.name)
    | none => .ok { c with catalog := c.catalog.insert d }
  | (_, .fact t f) => .ok (c.push t f)

/-- the configuration that a fact stream writes -/
def read (bytes : List UInt8) : Except Stream.Error Configuration := do
  (← Stream.readRecords FactRecord.decode bytes).foldlM takeRecord {}

/-- the records of a configuration: the types by name, then every target's facts -/
def records (c : Configuration) : List FactRecord :=
  c.catalog.toList.map .type ++ c.targets.toList.flatMap fun e => e.2.map (.fact e.1)

/-- the fact stream of a configuration -/
def write (c : Configuration) : String := Stream.writeRecords (c.records.map FactRecord.toJson)

end Configuration

end MixinPlanner
