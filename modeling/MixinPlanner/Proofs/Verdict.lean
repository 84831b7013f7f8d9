/-
The verdict on a batch is the verdict on its targets.

A report is accepted if no class of failures is in it, so it is decided by the problems of the targets and not by what became of
them. A target that was rejected without a problem would pass. No step of a batch leaves such a target (`Acts.founded`), so
there is none when the batch has finished, whatever the schedule was, whichever targets found the deadline passed and whatever
the cache held (`ReportsWhen.founded`). Therefore
- a report is accepted exactly if all its targets are resolved, and its counts and classes are those of its targets
  (`SumsUp`);
- a command that resolves or checks a batch ends with 0 or with 1 accordingly, unless it is to store plans and cannot
  (`EndsBy`).
-/
import MixinPlanner.Command.Run
import MixinPlanner.Proofs.DriftReport
import MixinPlanner.Proofs.Rejection

namespace MixinPlanner

/-! ## Classes of failures -/

theorem Problem.className_ne_deadline (p : Problem) : p.className ≠ Outcome.deadlineClass := by
  cases p <;> simp [className, Outcome.deadlineClass]

namespace Outcome

/-- an outcome other than a rejection without a problem -/
def Founded (o : Outcome) : Prop := o ≠ rejected []

theorem mem_failureClasses {o : Outcome} {cls : String} : cls ∈ o.failureClasses ↔
    (∃ p ∈ o.problems, p.className = cls) ∨ cls = deadlineClass ∧ o = deferred := by
  cases o <;> simp [failureClasses, problems]

/-- every outcome is of one of three kinds -/
theorem total (os : List Outcome) :
    (os.countP fun o => o.plan?.isSome) + os.countP isRejected + os.countP isDeferred = os.length := by
  induction os with
  | nil => rfl
  | cons o os ih =>
    have hone : (if o.plan?.isSome then 1 else 0) + (if o.isRejected then 1 else 0) +
        (if o.isDeferred then 1 else 0) = 1 := by
      cases o <;> rfl
    rw [List.countP_cons, List.countP_cons, List.countP_cons, List.length_cons]
    omega

/-- a target has failed under some class, unless it is resolved -/
theorem Founded.failureClasses_eq_nil {o : Outcome} (h : o.Founded) :
    o.failureClasses = [] ↔ ∃ plan, o = resolved plan := by
  cases o with
  | resolved plan => simp [failureClasses]
  | rejected ps =>
    have hne : ps ≠ [] := fun hps => h (congrArg rejected hps)
    simp [failureClasses, hne]
  | deferred => simp [failureClasses]

end Outcome

/-! ## Rejections have a reason -/

/-- a target is only rejected for a problem -/
theorem problems_ne_nil {settings : Settings} {catalog : Catalog} {e : TypeRef × List Fact} {problems : List Problem}
    (h : resolve settings catalog e.1 e.2 = .error problems) : problems ≠ [] :=
  ((Context.resolve_eq_error_iff settings catalog _ problems).1 h).1

namespace Underway

/-- no task has ended in a rejection without a problem -/
def Founded (s : Underway) : Prop := ∀ t ∈ s.tasks, t.progress ≠ .finished (.rejected [])

theorem start_founded (cache : PlanCache) (entries : List (TypeRef × List Fact)) : (start cache entries).Founded := by
  intro t ht
  obtain ⟨e, -, rfl⟩ := List.mem_map.1 ht
  exact nofun

variable {settings : Settings} {catalog : Catalog} {late : TypeRef → Bool}

theorem Acts.founded {cache cache' : PlanCache} {t : TargetTask} {p : Progress}
    (h : Acts settings catalog late cache t p cache') (ht : t.progress ≠ .finished (.rejected [])) :
    p ≠ .finished (.rejected []) := by
  cases h with
  | reject hrejected =>
    rintro ⟨⟩
    exact problems_ne_nil hrejected rfl
  | rest => exact ht
  | _ => exact nofun

theorem step_founded {s : Underway} (h : s.Founded) (i : ℕ) : (s.step settings catalog late i).Founded := by
  rcases step_cases settings catalog late s i with ⟨hstep, -⟩ | ⟨t, p, cache', ht, hacts, hstep⟩
  · rwa [hstep]
  · rw [hstep]
    intro t' ht'
    rcases List.mem_or_eq_of_mem_set ht' with ht' | rfl
    · exact h t' ht'
    · exact hacts.founded (h t (List.mem_of_getElem? ht))

theorem run_founded {s : Underway} (h : s.Founded) (schedule : List ℕ) :
    (s.run settings catalog late schedule).Founded := by
  induction schedule generalizing s with
  | nil => exact h
  | cons i schedule ih => exact ih (step_founded h i)

/-- what has been reported when all tasks have finished is founded, if no task has ended otherwise -/
theorem Founded.reports {s : Underway} (h : s.Founded) {reports : List TargetReport} (hfinished : s.Finished reports) :
    ∀ r ∈ reports, r.outcome.Founded := by
  intro r hr
  obtain ⟨t, ht, hreport⟩ := hfinished.exists_task hr
  obtain ⟨-, hprogress⟩ := TargetTask.report?_eq_some.1 hreport
  intro hempty
  exact h t ht (hprogress.trans (congrArg Progress.finished hempty))

end Underway

/-! ## Reports -/

namespace BatchReport

/-- every target is resolved -/
def AllResolved (r : BatchReport) : Prop := ∀ t ∈ r.targets, ∃ plan, t.outcome = .resolved plan

/-- what a report says as a whole is what became of its targets, of which there are a number -/
structure SumsUp (r : BatchReport) (size : ℕ) : Prop where
  accepted : r.accepted = true ↔ r.AllResolved
  targets : r.summary.targets = size
  total : r.summary.resolved + r.summary.rejected + r.summary.deferred = size
  resolved : r.summary.resolved = r.plans.length
  deferred : r.summary.deferred = r.deferred.length
  problems : r.summary.problems = (r.targets.map fun t => t.outcome.problems.length).sum
  ascending : r.failureClasses.Pairwise fun a b => compare a b = .lt
  classes : ∀ cls, cls ∈ r.failureClasses ↔ (∃ t ∈ r.targets, ∃ p ∈ t.outcome.problems, p.className = cls) ∨
    cls = Outcome.deadlineClass ∧ ∃ t ∈ r.targets, t.outcome = .deferred
  deadline : Outcome.deadlineClass ∈ r.failureClasses ↔ ∃ t ∈ r.targets, t.outcome = .deferred

variable {reports : List TargetReport}

/-- targets failed under the classes under which any of them did -/
theorem mem_failureClasses_ofTargets {cls : String} :
    cls ∈ (ofTargets reports).failureClasses ↔ ∃ t ∈ reports, cls ∈ t.outcome.failureClasses := by
  have hset : cls ∈ (ofTargets reports).failureClasses ↔
      cls ∈ (.insertAll .empty ((reports.map TargetReport.outcome).flatMap Outcome.failureClasses) : SortedSet String) :=
    Iff.rfl
  have hempty : cls ∉ (.empty : SortedSet String) := List.not_mem_nil
  rw [hset, SortedBy.mem_insertAll, or_iff_right hempty, List.mem_flatMap]
  simp only [List.mem_map, exists_exists_and_eq_and]

/-- targets are accepted if none has failed under any class -/
theorem accepted_ofTargets :
    (ofTargets reports).accepted = true ↔ ∀ t ∈ reports, t.outcome.failureClasses = [] := by
  have hresult : (ofTargets reports).result = verdict (ofTargets reports).failureClasses.isEmpty := rfl
  have hverdict : (ofTargets reports).accepted = true ↔ (ofTargets reports).failureClasses = [] := by
    rw [accepted, hresult, ← List.isEmpty_iff]
    cases (ofTargets reports).failureClasses.isEmpty <;> decide
  rw [hverdict, List.eq_nil_iff_forall_not_mem]
  simp only [mem_failureClasses_ofTargets, List.eq_nil_iff_forall_not_mem, not_exists, not_and]
  exact ⟨fun h t ht cls hcls => h cls t ht hcls, fun h cls t ht hcls => h t ht cls hcls⟩

/-- the classes of all problems, and that of the deadline if a target was deferred -/
theorem classes_ofTargets {cls : String} : cls ∈ (ofTargets reports).failureClasses ↔
    (∃ t ∈ reports, ∃ p ∈ t.outcome.problems, p.className = cls) ∨
      cls = Outcome.deadlineClass ∧ ∃ t ∈ reports, t.outcome = .deferred := by
  rw [mem_failureClasses_ofTargets]
  constructor
  · rintro ⟨t, ht, hcls⟩
    rcases Outcome.mem_failureClasses.1 hcls with hproblem | ⟨hcls, hdeferred⟩
    · exact .inl ⟨t, ht, hproblem⟩
    · exact .inr ⟨hcls, t, ht, hdeferred⟩
  · rintro (⟨t, ht, hproblem⟩ | ⟨hcls, t, ht, hdeferred⟩)
    · exact ⟨t, ht, Outcome.mem_failureClasses.2 (.inl hproblem)⟩
    · exact ⟨t, ht, Outcome.mem_failureClasses.2 (.inr ⟨hcls, hdeferred⟩)⟩

/-- no problem has the class of the deadline, so it stands for deferred targets alone -/
theorem deadline_ofTargets : Outcome.deadlineClass ∈ (ofTargets reports).failureClasses ↔
    ∃ t ∈ reports, t.outcome = .deferred := by
  have hproblem : ¬ ∃ t ∈ reports, ∃ p ∈ t.outcome.problems, p.className = Outcome.deadlineClass := by
    rintro ⟨-, -, p, -, hp⟩
    exact p.className_ne_deadline hp
  rw [classes_ofTargets, or_iff_right hproblem, and_iff_right rfl]

/-- a report on targets of which none was rejected without a problem sums them up -/
theorem sumsUp_ofTargets (h : ∀ t ∈ reports, t.outcome.Founded) : (ofTargets reports).SumsUp reports.length where
  accepted := by
    rw [accepted_ofTargets]
    exact forall₂_congr fun t ht => (h t ht).failureClasses_eq_nil
  targets := rfl
  total := (Outcome.total _).trans (List.length_map _)
  resolved := by
    show (reports.map TargetReport.outcome).countP (fun o => o.plan?.isSome) = _
    rw [plans, List.length_filterMap_eq_countP, List.countP_map]
    rfl
  deferred := by
    show (reports.map TargetReport.outcome).countP Outcome.isDeferred = _
    rw [BatchReport.deferred, List.length_map, ← List.countP_eq_length_filter, List.countP_map]
    rfl
  problems := by
    show ((reports.map TargetReport.outcome).flatMap Outcome.problems).length = _
    rw [List.length_flatMap, List.map_map]
    rfl
  ascending := (SortedBy.ofList _ : SortedSet String).ascending
  classes _ := classes_ofTargets
  deadline := deadline_ofTargets

end BatchReport

namespace Configuration

section Batch

variable {settings : Settings} {late : TypeRef → Bool} {c : Configuration} {cache : PlanCache} {r : BatchReport}

/-- no batch ends with a target that is rejected without a problem -/
theorem ReportsWhen.founded (h : c.ReportsWhen settings late cache r) : ∀ t ∈ r.targets, t.outcome.Founded := by
  obtain ⟨schedule, reports, hfinished, rfl⟩ := h.exists_schedule
  exact (Underway.run_founded (Underway.start_founded cache c.targets.toList) schedule).reports hfinished

theorem ReportsWhen.sumsUp (h : c.ReportsWhen settings late cache r) : r.SumsUp c.targets.size := by
  have hlength : r.targets.length = c.targets.size := by
    have hnumber := congrArg List.length h.targets
    rwa [List.length_map, List.length_map] at hnumber
  have hfounded := h.founded
  obtain ⟨schedule, reports, hfinished, rfl⟩ := h.exists_schedule
  exact hlength ▸ BatchReport.sumsUp_ofTargets hfounded

end Batch

end Configuration

/-! ## Commands -/

namespace Command

variable {σ : Type}

/-- where a command is to store the plans of its batch, it can -/
def CanStore (command : Command) (files : FileAccess (StateM σ)) (r : BatchReport) (s : σ) : Prop :=
  ∀ target path, command.task = .resolve target (some path) → ((store files path r).run s).1 = .ok ()

/-- how a command ends by the verdict on its batch, if its plans are stored where they are to be -/
structure EndsBy (r : BatchReport) (stored : Prop) (finish : Finish) : Prop where
  accepted : r.accepted = true ∧ finish.code ≠ 1 ↔ r.AllResolved
  passed : finish.code = 0 ↔ r.AllResolved ∧ stored
  failed : finish.code = 1 ↔ ¬ r.AllResolved ∧ stored

theorem endsBy_report {r : BatchReport} (h : r.accepted = true ↔ r.AllResolved) {stored : Prop} (hstored : stored)
    (text : String) : EndsBy r stored (.report r.accepted text) := by
  cases haccepted : r.accepted with
  | true =>
    have hall : r.AllResolved := h.1 haccepted
    exact ⟨iff_of_true ⟨haccepted, show (0 : UInt32) ≠ 1 by decide⟩ hall, iff_of_true rfl ⟨hall, hstored⟩,
      iff_of_false (show (0 : UInt32) ≠ 1 by decide) fun hnot => hnot.1 hall⟩
  | false =>
    have hnot : ¬ r.AllResolved := fun hall => Bool.false_ne_true (haccepted.symm.trans (h.2 hall))
    exact ⟨iff_of_false (fun hcode => hcode.2 rfl) hnot,
      iff_of_false (show (1 : UInt32) ≠ 0 by decide) fun hall => hnot hall.1, iff_of_true rfl ⟨hnot, hstored⟩⟩

theorem endsBy_unusable {r : BatchReport} (h : r.accepted = true ↔ r.AllResolved) {stored : Prop} (hstored : ¬ stored)
    (reason : String) : EndsBy r stored (.unusable reason) where
  accepted := (and_iff_left (show (2 : UInt32) ≠ 1 by decide)).trans h
  passed := iff_of_false (show (2 : UInt32) ≠ 0 by decide) fun hall => hstored hall.2
  failed := iff_of_false (show (2 : UInt32) ≠ 1 by decide) fun hall => hstored hall.2

section Run

variable {ε α β : Type} {x : ExceptT ε (StateM σ) α} {f : α → ExceptT ε (StateM σ) β} {s s' : σ}

theorem run_bind_of_ok {a : α} (h : x.run s = (.ok a, s')) : (x >>= f).run s = (f a).run s' := by
  show ExceptT.bindCont f (x.run s).1 (x.run s).2 = _
  rw [h]
  rfl

theorem run_bind_of_error {e : ε} (h : x.run s = (.error e, s')) : (x >>= f).run s = (.error e, s') := by
  show ExceptT.bindCont f (x.run s).1 (x.run s).2 = _
  rw [h]
  rfl

end Run

variable {command : Command} {files : FileAccess (StateM σ)}

/-- a command that does not verify plans ends with the verdict, or because it cannot store the plans -/
theorem conclude_cases (htask : ∀ path, command.task ≠ .verifyPlans path) (files : FileAccess (StateM σ))
    (r : BatchReport) (s : σ) :
    (command.CanStore files r s ∧ ∃ text, ((command.conclude files r).run s).1 = .ok (.report r.accepted text)) ∨
      (¬ command.CanStore files r s ∧ ∃ reason, ((command.conclude files r).run s).1 = .error reason) := by
  obtain ⟨task, facts, config, json⟩ := command
  cases task with
  | verifyPlans path => exact absurd rfl (htask path)
  | check => exact .inl ⟨nofun, _, rfl⟩
  | resolve target out =>
    cases out with
    | none => exact .inl ⟨nofun, _, rfl⟩
    | some path =>
      cases hstore : (store files path r).run s with
      | mk result s' =>
        cases result with
        | ok _ =>
          refine .inl ⟨?_, _, congrArg Prod.fst (run_bind_of_ok hstore)⟩
          rintro _ _ ⟨⟩
          rw [hstore]
        | error reason =>
          refine .inr ⟨fun h => ?_, reason, congrArg Prod.fst (run_bind_of_error hstore)⟩
          have hstored := h target path rfl
          rw [hstore] at hstored
          cases hstored

/-- once its input is loaded, a command goes on with the report on the batch -/
theorem runWith_of_load {batch : Settings → Configuration → BatchReport} {s s' : σ} {settings : Settings}
    {c : Configuration} (h : (command.load files).run s = (.ok (settings, c), s')) :
    ((command.runWith batch files).run s).1 = .ofResult ((command.conclude files (batch settings c)).run s').1 := by
  have hperform : (command.perform batch files).run s = (command.conclude files (batch settings c)).run s' := by
    rw [perform, run_bind_of_ok h]
  rw [← hperform]
  rfl

/-- only a command that has loaded its input ends with 1 -/
theorem loaded_of_code_eq_one {batch : Settings → Configuration → BatchReport} {s : σ}
    (h : ((command.runWith batch files).run s).1.code = 1) :
    ∃ settings c s', (command.load files).run s = (.ok (settings, c), s') := by
  cases hload : (command.load files).run s with
  | mk result s' =>
    cases result with
    | ok loaded => exact ⟨loaded.1, loaded.2, s', rfl⟩
    | error reason =>
      have hperform : (command.perform batch files).run s = (.error reason, s') := by
        rw [perform, run_bind_of_error hload]
      have hcode : ((command.runWith batch files).run s).1 = .ofResult ((command.perform batch files).run s).1 := rfl
      rw [hcode, hperform] at h
      exact absurd h (show (2 : UInt32) ≠ 1 by decide)

/-- a command that does not verify plans ends by the verdict on its batch, if that is the verdict on its targets -/
theorem endsBy_runWith {batch : Settings → Configuration → BatchReport} {s s' : σ} {settings : Settings}
    {c : Configuration} (hload : (command.load files).run s = (.ok (settings, c), s'))
    (htask : ∀ path, command.task ≠ .verifyPlans path)
    (hverdict : (batch settings c).accepted = true ↔ (batch settings c).AllResolved) :
    EndsBy (batch settings c) (command.CanStore files (batch settings c) s') ((command.runWith batch files).run s).1 := by
  rw [runWith_of_load hload]
  rcases conclude_cases htask files (batch settings c) s' with
    ⟨hstored, text, hfinish⟩ | ⟨hstored, reason, hfinish⟩
  · rw [hfinish]
    exact endsBy_report hverdict hstored text
  · rw [hfinish]
    exact endsBy_unusable hverdict hstored reason

end Command

/-! ### Loading what was written -/

/-- a stream that was written is text without NUL -/
theorem checkText_writeRecords (path : String) (js : List Json) :
    checkText path (utf8 (Stream.writeRecords js)) = .ok (utf8 (Stream.writeRecords js)) := by
  have hchars : '\x00' ∉ js.flatMap fun j => j.chars ++ ['\n'] := by
    intro hmem
    obtain ⟨j, -, hmem⟩ := List.mem_flatMap.1 hmem
    rcases List.mem_append.1 hmem with hmem | hmem
    · exact absurd (j.chars_printable _ hmem) (by decide)
    · exact absurd (List.mem_singleton.1 hmem) (by decide)
  have hnul : 0 ∉ utf8 (Stream.writeRecords js) := Stream.byte_not_mem (a := '\x00') (by decide) hchars
  have htext : (Stream.textOf (utf8 (Stream.writeRecords js))).isNone = false := by rw [Stream.textOf_utf8]; rfl
  rw [checkText, if_neg (by simpa using hnul), htext]
  rfl

/-- a configuration is loaded from the file that it was written to -/
theorem Configuration.ofFile_write (path : String) {c : Configuration} (h : c.Streamable) :
    Configuration.ofFile path (.ok (utf8 c.write)) = .ok c := by
  have hcheck : checkText path (utf8 c.write) = .ok (utf8 c.write) := checkText_writeRecords path _
  simp only [Configuration.ofFile, bind, Except.bind, hcheck, Configuration.read_written h]

namespace Configuration

/-- **The verdict on a batch is the verdict on its targets.** Whatever the schedule was, whichever targets found the deadline
passed and whatever the cache held, the report is on the targets of the batch, it is accepted exactly if all of them are
resolved, and its counts and classes are those of their outcomes. A command that resolves or checks the batch ends with 1
exactly if one of them is not resolved, as long as it can store the plans that it is to store; if it cannot, it ends with 2,
and with a report that is accepted only if all are resolved. -/
theorem batch_verdict {settings : Settings} {late : TypeRef → Bool} {c : Configuration} {cache : PlanCache}
    {r : BatchReport} (h : c.ReportsWhen settings late cache r) :
    r.targets.map TargetReport.target = c.targets.toList.map Prod.fst ∧ r.SumsUp c.targets.size ∧
      ∀ {σ : Type} (command : Command) (files : FileAccess (StateM σ)) (batch : Settings → Configuration → BatchReport)
        (s s' : σ), (∀ path, command.task ≠ .verifyPlans path) →
          (command.load files).run s = (.ok (settings, c), s') → batch settings c = r →
            Command.EndsBy r (command.CanStore files r s') ((command.runWith batch files).run s).1 := by
  refine ⟨h.targets, h.sumsUp, ?_⟩
  rintro σ command files batch s s' htask hload rfl
  exact Command.endsBy_runWith hload htask h.sumsUp.accepted

/-! ### A batch of which one target was rejected and one deferred -/

/-- a file with some bytes, on a disk to which nothing can be written -/
def salesDisk (bytes : List UInt8) : FileAccess (StateM Unit) where
  read path := return if path = "sales.ndjson" then .ok bytes else .error .notFound
  pathExists path := return path == "sales.ndjson"
  directoryExists _ := return false
  makeDirectory _ := return .error (.other "Read-only file system (os error 30)")
  write _ _ := return .error (.other "Read-only file system (os error 30)")
  move _ _ := return .error (.other "Read-only file system (os error 30)")
  remove _ := return
  stamp := return ".tmp"

def checkSales : Command where
  task := .check
  facts := "sales.ndjson"
  config := none
  json := false

theorem checkSales_load {bytes : List UInt8} {c : Configuration}
    (h : Configuration.ofFile "sales.ndjson" (.ok bytes) = .ok c) :
    (checkSales.load (salesDisk bytes)).run () = (.ok ({}, c), ()) := by
  have hsettings : (checkSales.settings (salesDisk bytes)).run () = (.ok {}, ()) := rfl
  have hconfiguration : (checkSales.configuration (salesDisk bytes)).run () = (.ok c, ()) := by
    have hexists : (liftM ((salesDisk bytes).pathExists checkSales.facts) : ExceptT String (StateM Unit) Bool).run () =
        (.ok true, ()) := rfl
    have hfacts : (liftM ((salesDisk bytes).loadFacts checkSales.facts) :
        ExceptT String (StateM Unit) (Except LoadError Configuration)).run () = (.ok (.ok c), ()) := by
      rw [← h]
      rfl
    rw [Command.configuration, Command.run_bind_of_ok hexists]
    exact Command.run_bind_of_ok hfacts
  rw [Command.load, Command.run_bind_of_ok hsettings, Command.run_bind_of_ok hconfiguration]
  rfl

theorem sales_streamable : sales.Streamable := by
  have hdrafted : MixinFact.Drafted { mixin := ⟨"Logging", []⟩ } := .start ⟨by decide, trivial⟩
  have hlogging : Fact.Writable (.mixin { mixin := ⟨"Logging", []⟩ }) :=
    Fact.writable_mixin.2 ((MixinFact.writable_iff_built _).2 ⟨_, hdrafted, rfl⟩)
  have haudited : Fact.Writable (.completeInterface { interface := ⟨"Audited", []⟩ }) :=
    Fact.writable_completeInterface.2 ⟨by decide, trivial⟩
  have hnone : Streamable {} := streamable_of_catalog (List.forall_mem_nil _)
  have horder := hnone.push (t := ⟨"Order", []⟩) ⟨by decide, trivial⟩ hlogging
  exact horder.push (t := ⟨"Refund", []⟩) ⟨by decide, trivial⟩ haudited

/-- a batch for which there is no time left when it comes to the order -/
def resolveLate (settings : Settings) (c : Configuration) : BatchReport :=
  (c.resolveWhen (fun t => t.name == "Order") settings .empty).1

/-- of the sales, the refund is rejected and the order deferred, and a check of them ends with 1 -/
theorem lateSales_verdict :
    sales.ReportsWhen {} (fun t => t.name == "Order") .empty (resolveLate {} sales) ∧
      (resolveLate {} sales).accepted = false ∧
      (resolveLate {} sales).failureClasses = ["batch.deadline_exceeded", "mixin.unsatisfiable_complete_interface"] ∧
      (checkSales.load (salesDisk (utf8 sales.write))).run () = (.ok ({}, sales), ()) ∧
      ((checkSales.runWith resolveLate (salesDisk (utf8 sales.write))).run ()).1.code = 1 := by
  have hinTurn : sales.ReportsWhen {} (fun t => t.name == "Order") .empty (resolveLate {} sales) := .inTurn
  have hload := checkSales_load (ofFile_write "sales.ndjson" sales_streamable)
  obtain ⟨-, hsums, hcommand⟩ := batch_verdict hinTurn
  have hends := hcommand checkSales (salesDisk (utf8 sales.write)) resolveLate () () nofun hload rfl
  have horder : ⟨⟨"Order", []⟩, .deferred⟩ ∈ (resolveLate {} sales).targets := List.mem_cons_self
  have hunresolved : ¬ (resolveLate {} sales).AllResolved := by
    intro hall
    obtain ⟨plan, hplan⟩ := hall _ horder
    cases hplan
  exact ⟨hinTurn, Bool.eq_false_iff.2 (hunresolved ∘ hsums.accepted.1), rfl, hload,
    hends.failed.2 ⟨hunresolved, nofun⟩⟩

end Configuration

end MixinPlanner
