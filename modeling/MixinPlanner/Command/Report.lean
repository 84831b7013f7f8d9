/-
The reports of the commands, as lines of text and as JSON.
-/
import MixinPlanner.Drift
import MixinPlanner.Wire.Batch

namespace MixinPlanner

open Wire

namespace Report

/-- lines of text, each ended -/
def ofLines (lines : List String) : String := String.join (lines.map (· ++ "\n"))

/-- the indented form of a value, ended as a line -/
def ofJson (j : Json) : String := ofLines [j.pretty]

/-- the first word of a report -/
def state (ok : Bool) : String := if ok then "OK" else "FAIL"

/-- named counts between parentheses -/
def counts (cs : List (String × Nat)) : String :=
  "(" ++ ", ".intercalate (cs.map fun c => c.1 ++ "=" ++ toString c.2) ++ ")"

/-- the first line of a report -/
def headline (command : String) (ok : Bool) (cs : List (String × Nat)) : String :=
  "[" ++ command ++ "] " ++ state ok ++ " " ++ counts cs

/-- a text between parentheses -/
def aside (s : String) : String := "(" ++ s ++ ")"

/-- a problem in a line -/
def problemText (p : Problem) : String := p.className ++ " " ++ aside p.message

/-- a warning in a line -/
def warningText (w : Warning) : String := w.className ++ " " ++ aside w.message

/-! ## Resolving -/

/-- a target's line, and its warnings or problems below it -/
def targetLines (t : TargetReport) : List String :=
  match t.outcome with
  | .resolved plan =>
    ("  " ++ t.target.text ++ " -> " ++ plan.callChain ++ " [" ++ plan.contentHash.short ++ "]") ::
      plan.warnings.map fun w => "    - WARN " ++ warningText w
  | .rejected problems => ("  " ++ t.target.text ++ " rejected") :: problems.map fun p => "    - " ++ problemText p
  | .deferred => ["  " ++ t.target.text ++ " deferred (batch deadline passed)"]

/-- the report on resolved targets -/
def resolveText (r : BatchReport) : String :=
  ofLines (headline "resolve" r.accepted
    [("targets", r.summary.targets), ("resolved", r.summary.resolved), ("rejected", r.summary.rejected),
      ("deferred", r.summary.deferred), ("warnings", r.summary.warnings)] :: r.targets.flatMap targetLines)

/-! ## Checking -/

/-- the kind of a report on a check -/
def checkKind : String := "weave.check.v1"

/-- the version of the form of reports -/
def schema : Nat := 1

/-- the report on checked targets: all problems, then all warnings, then the targets that were not reached -/
def checkText (r : BatchReport) : String :=
  ofLines (headline "check" r.accepted
      [("targets", r.summary.targets), ("errors", r.summary.problems), ("warnings", r.summary.warnings)] ::
    r.problems.map (fun p => "  - " ++ problemText p) ++
    r.plans.flatMap (fun plan => plan.warnings.map fun w =>
      "  - WARN " ++ plan.target.text ++ " " ++ warningText w) ++
    r.deferred.map fun t => "  - " ++ t.text ++ " deferred")

/-- the report on checked targets as a value -/
def checkJson (facts : String) (r : BatchReport) : Json :=
  Json.sortKeys (.object
    (member "schema" (.nat schema) ++ member "checkKind" (.string checkKind) ++
      member "factsPath" (.string facts) ++ member "result" (.string r.result) ++
      member "failureClasses" (.strings r.failureClasses) ++ member "warningClasses" (.strings r.warningClasses) ++
      member "errors" (.array (r.problems.map Problem.toJson)) ++
      member "warnings" (.array (r.plans.flatMap fun plan => plan.warnings.map fun w =>
        .object (member "target" (typeJson plan.target) ++ member "warning" w.toJson))) ++
      member "deferred" (.array (typesJson r.deferred)) ++ member "summary" r.summary.toJson))

/-! ## Verifying -/

/-- the kind of a report on stored plans -/
def verifyKind : String := "weave.verify_plans.v1"

/-- the report on stored plans -/
def verifyText (stored fresh : PlanSet) (drift : List Drift) : String :=
  ofLines (headline "verify-plans" drift.isEmpty
      [("stored", stored.size), ("resolved", fresh.size), ("mismatches", drift.length)] ::
    drift.map fun d => "  - " ++ d.target.text ++ " " ++ d.className ++ " " ++ aside d.message)

/-- one drift as a value -/
def driftJson (d : Drift) : Json :=
  .object (member "target" (typeJson d.target) ++ member "class" (.string d.className) ++
    member "message" (.string d.message))

/-- the report on stored plans as a value -/
def verifyJson (facts plans : String) (stored fresh : PlanSet) (drift : List Drift) : Json :=
  Json.sortKeys (.object
    (member "schema" (.nat schema) ++ member "checkKind" (.string verifyKind) ++
      member "factsPath" (.string facts) ++ member "plansPath" (.string plans) ++
      member "result" (.string (BatchReport.verdict drift.isEmpty)) ++
      member "failureClasses" (.strings (SortedBy.ofList (drift.map Drift.className) : SortedSet String).toList) ++
      member "mismatches" (.array (drift.map driftJson)) ++
      member "summary" (.object (member "storedCount" (.nat stored.size) ++
        member "resolvedCount" (.nat fresh.size) ++ member "mismatchCount" (.nat drift.length)))))

end Report

end MixinPlanner
