/-
Planning of mixin composition: facts about target types in, composition plans out.
-/
import MixinPlanner.Files.Tree
import MixinPlanner.Main
import MixinPlanner.Proofs.Classification
import MixinPlanner.Proofs.Composition
import MixinPlanner.Proofs.Conflicts
import MixinPlanner.Proofs.Constraints
import MixinPlanner.Proofs.Counters
import MixinPlanner.Proofs.CycleSearch
import MixinPlanner.Proofs.DriftCases
import MixinPlanner.Proofs.DriftComplete
import MixinPlanner.Proofs.DriftReport
import MixinPlanner.Proofs.FieldLayout
import MixinPlanner.Proofs.LineReading
import MixinPlanner.Proofs.Members
import MixinPlanner.Proofs.Places
import MixinPlanner.Proofs.PlanHash
import MixinPlanner.Proofs.PlanStore
import MixinPlanner.Proofs.Provenance
import MixinPlanner.Proofs.Rejection
import MixinPlanner.Proofs.Representation
import MixinPlanner.Proofs.StoreReading
import MixinPlanner.Proofs.Strictness
import MixinPlanner.Proofs.Verdict
import MixinPlanner.Proofs.InterfaceClosure
import MixinPlanner.Proofs.Instantiation
import MixinPlanner.Proofs.DefinitionRule
import MixinPlanner.Proofs.Requirements
import MixinPlanner.Proofs.EarliestFault
import MixinPlanner.Proofs.FactReading
import MixinPlanner.Proofs.PlanMerging
import MixinPlanner.Proofs.Repetition
import MixinPlanner.Proofs.SelfDependency
import MixinPlanner.Proofs.TypeOrder
