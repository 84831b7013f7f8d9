/-
Plans that are stored and verified.

A plan that a target resolves to has the schema and the hash that a store asks for, and everything in it was read from texts
or made of what was (`storable_of_resolve`), so it survives storage.
- `give_collect`: plans in the order of their targets are collected as they are;
- `read_written`: a set of such plans is read back from its store;
- `drift_self`: a set of plans has not drifted from itself.

A batch without a deadline may end with one report only (`Reports.eq`), whatever the schedule and the caches were, so what it
stores agrees with what it resolves to later: `stored_plans_verify`.
-/
import Mathlib.Tactic
import MixinPlanner.Drift
import MixinPlanner.Proofs.Composition
import MixinPlanner.Proofs.Interleaving
import MixinPlanner.Proofs.PlanMerging
import MixinPlanner.Proofs.Streams
import MixinPlanner.Stream.Plans

namespace MixinPlanner

/-! ## References of a plan -/

theorem TypeRef.validAll_iff {args : List TypeArg} : ValidAll args ↔ ∀ a ∈ args, ValidArg a := by
  induction args with
  | nil => exact ⟨fun _ => List.forall_mem_nil _, fun _ => trivial⟩
  | cons a args ih => rw [ValidAll, ih, List.forall_mem_cons]

theorem TypeRef.Valid.validArg {t : TypeRef} (h : t.Valid) : ∀ a ∈ t.args, ValidArg a := by
  cases t with
  | mk n args => exact validAll_iff.1 h.2

/-- a parameter is bound to one of the arguments -/
theorem TypeDecl.mem_of_binding {d : TypeDecl} {args : List TypeArg} {p : String} {a : TypeArg}
    (h : d.binding args p = some a) : a ∈ args := by
  obtain ⟨l₁, l₂, hsplit, -⟩ := List.lookup_eq_some_iff.1 h
  have hmem : (p, a) ∈ ((d.genericParams.map GenericParam.name).zip args).reverse := by rw [hsplit]; simp
  exact (List.of_mem_zip (List.mem_reverse.1 hmem)).2

/-- the direct interfaces of a type are those of its declaration, with its arguments put in -/
theorem Catalog.legible_directInterfaces {c : Catalog} (h : Legible c.references) {t : TypeRef} (ht : t.Valid) :
    Legible (c.directInterfaces t) := by
  unfold directInterfaces decl?
  cases hfind : c.find? t.name with
  | none => exact List.forall_mem_nil _
  | some d =>
    have hd := (legible_iff c).1 h d (SortedBy.mem_of_find? hfind)
    have hinterfaces := legible_iff_valid.1 ((TypeDecl.legible_iff d).1 hd).2
    simp only [TypeDecl.interfacesFor]
    split_ifs
    · refine legible_map.2 fun i hi => TypeRef.substitute_valid (fun p a ha => ?_) i (hinterfaces i hi)
      exact ht.validArg a (TypeDecl.mem_of_binding ha)
    · exact legible_iff_valid.2 hinterfaces

/-- building a graph warns of nothing but dependencies of the context's mixins -/
theorem DependencyGraph.legible_warnings (settings : Settings) (catalog : Catalog) {context : Context}
    (h : Legible context.references) : ∀ w ∈ (build settings catalog context).warnings, Legible w.references := by
  intro w hw
  rw [(build_entered settings catalog context).warnings] at hw
  obtain ⟨k, hk, hwarning⟩ := List.mem_filterMap.1 ((List.mem_append.1 hw).resolve_left List.not_mem_nil)
  obtain ⟨e, he, hm, hd⟩ := (context.mem_calls k).1 hk
  obtain ⟨-, hmixins, -⟩ := (Context.legible_iff context).1 h
  obtain ⟨hmixin, hdependencies, -⟩ := (MixinFact.legible_iff e.fact).1 (hmixins e (List.mem_of_getElem? he))
  unfold warning? at hwarning
  split at hwarning
  next =>
    split_ifs at hwarning
    cases hwarning
    refine legible_cons.2 ⟨hm ▸ hmixin, legible_cons.2 ⟨legible_iff_valid.1 hdependencies _ hd, ?_⟩⟩
    exact List.forall_mem_nil _
  next => cases hwarning

/-! ## Plans that can be stored -/

/-- a plan that is trusted when it is read from a store -/
structure Plan.Storable (p : Plan) : Prop where
  writable : p.Writable
  schema : p.schema = planSchema
  hash : p.computeHash = p.contentHash

namespace Context

/-- a context of legible references resolves to a plan that can be stored -/
theorem storable_of_resolve {settings : Settings} {catalog : Catalog} {context : Context} {plan : Plan}
    (hcatalog : Legible catalog.references) (hcontext : Legible context.references)
    (h : context.resolve settings catalog = .ok plan) : plan.Storable := by
  obtain ⟨-, -, order, -, rfl⟩ := resolve_eq_ok_iff.1 h
  obtain ⟨htarget, hmixins, hcomplete, -, hwarnings⟩ := (legible_iff context).1 hcontext
  refine ⟨⟨(by decide : planSchema < 2 ^ 32), htarget, ?_, ?_, ?_⟩, rfl, rfl⟩
  · refine List.forall_mem_map.2 fun e he => ?_
    obtain ⟨m, -, hfind⟩ := List.mem_filterMap.1 he
    have hfact := hmixins e (List.mem_of_find?_eq_some hfind)
    obtain ⟨hm, hd, -⟩ := (MixinFact.legible_iff e.fact).1 hfact
    exact ⟨hm, hd, Catalog.legible_directInterfaces hcatalog hm⟩
  · exact legible_map.2 hcomplete
  · exact List.forall_mem_append.2 ⟨hwarnings, DependencyGraph.legible_warnings settings catalog hcontext⟩

end Context

/-- a target of legible facts resolves to a plan that can be stored -/
theorem storable_of_resolve {settings : Settings} {catalog : Catalog} {target : TypeRef} {facts : List Fact}
    {plan : Plan} (hcatalog : Legible catalog.references) (hfacts : Legible (target :: facts.flatMap Fact.references))
    (h : resolve settings catalog target facts = .ok plan) : plan.Storable := by
  obtain ⟨htarget, hfacts⟩ := legible_cons.1 hfacts
  exact Context.storable_of_resolve hcatalog (Context.legible_build settings htarget (legible_flatMap.1 hfacts)) h

theorem target_of_resolve {settings : Settings} {catalog : Catalog} {target : TypeRef} {facts : List Fact}
    {plan : Plan} (h : resolve settings catalog target facts = .ok plan) : plan.target = target := by
  obtain ⟨-, -, order, -, rfl⟩ := Context.resolve_eq_ok_iff.1 h
  exact Context.build_target settings target facts

/-! ## Sets of plans -/

namespace PlanSet

/-- a plan for a target after all others is added, not compared with another -/
theorem add_next {s : PlanSet} {p : Plan} {ps : List Plan}
    (h : (s.toList ++ p :: ps).Pairwise fun q q' => compare q.target q'.target = .lt) : s.add p = .ok (s.insert p) := by
  simp only [add, SortedBy.find?_of_lt (SortedBy.lt_next h)]

/-- collecting plans in the order of their targets never fails, and yields the hash of each -/
theorem give_collect {ps : List Plan} {s : PlanSet}
    (h : (s.toList ++ ps).Pairwise fun q q' => compare q.target q'.target = .lt) :
    BatchReport.give collect s ps = (.ok (ps.map Plan.contentHash), s.insertAll ps) := by
  induction ps generalizing s with
  | nil => rfl
  | cons p ps ih =>
    have hcollect : s.collect p = .ok (p.contentHash, s.insert p) := by rw [collect, add_next h]; rfl
    simp only [BatchReport.give, hcollect, ih (SortedBy.ascending_next h)]
    rfl

theorem collect_toList (s : PlanSet) :
    BatchReport.give collect SortedBy.empty s.toList = (.ok (s.toList.map Plan.contentHash), s) := by
  have hgive : BatchReport.give collect SortedBy.empty s.toList =
      (.ok (s.toList.map Plan.contentHash), SortedBy.empty.insertAll s.toList) := give_collect s.ascending
  rw [hgive]
  exact congrArg (Prod.mk _) s.ofList_toList

/-- stored plans are taken as they are, whatever lines they are on -/
theorem taken_plans {ps : List Plan} (hps : ∀ p ∈ ps, p.Storable) {rs : List (ℕ × Plan)} (hrs : rs.map Prod.snd = ps)
    {s : PlanSet} (h : (s.toList ++ ps).Pairwise fun q q' => compare q.target q'.target = .lt) :
    rs.foldlM takeRecord s = .ok (s.insertAll ps) := by
  induction ps generalizing rs s with
  | nil =>
    obtain rfl := List.map_eq_nil_iff.1 hrs
    rfl
  | cons p ps ih =>
    obtain ⟨⟨line, q⟩, rest, rfl, hq, hrest⟩ := List.map_eq_cons_iff.1 hrs
    obtain rfl : q = p := hq
    obtain ⟨hq, hps⟩ := List.forall_mem_cons.1 hps
    have htake : takeRecord s (line, q) = .ok (s.insert q) := by
      rw [takeRecord, if_neg (not_not.2 hq.schema), if_neg (not_not.2 hq.hash), add_next h]
      rfl
    rw [List.foldlM_cons, htake]
    exact ih hps hrest (SortedBy.ascending_next h)

/-- **Stored plans are read back.** -/
theorem read_written {s : PlanSet} (h : ∀ p ∈ s.toList, p.Storable) : read (utf8 s.write) = .ok s := by
  have hread : Stream.readRecords Plan.decode (utf8 s.write) = .ok ((s.toList.zipIdx 1).map Prod.swap) := by
    refine Stream.readRecords_write (fun p _ => ⟨_, rfl⟩) fun p hp => ?_
    exact (Plan.faithful.roundTrip (by decide)).read_back p (h p hp).writable
  have htaken := taken_plans h (Stream.map_snd_numbered s.toList) (s := SortedBy.empty) s.ascending
  simp only [read, hread]
  rw [htaken]
  exact congrArg Except.ok s.ofList_toList

/-- plans have not drifted from themselves -/
theorem drift_self (s : PlanSet) (unresolved : List TypeRef) : s.drift s unresolved = [] := by
  have hfresh : s.toList.filterMap s.driftOfFresh = [] := by
    refine List.filterMap_eq_nil_iff.2 fun p hp => ?_
    simp only [driftOfFresh, s.find?_of_mem hp, if_true]
  have hstored : s.toList.filterMap (driftOfStored unresolved s) = [] := by
    refine List.filterMap_eq_nil_iff.2 fun p hp => ?_
    have hcontains : s.contains p.target = true := by rw [SortedBy.contains, s.find?_of_mem hp]; rfl
    simp only [driftOfStored, hcontains, if_true]
  rw [drift, hfresh, hstored]
  rfl

end PlanSet

namespace Configuration

/-! ## Batches -/

/-- the reports that a batch may end with: of its targets in turn, or of its targets under some schedule -/
inductive Reports (settings : Settings) (c : Configuration) (cache : PlanCache) : BatchReport → Prop
  | inTurn : Reports settings c cache (c.resolve settings cache).1
  | underSchedule {schedule : List ℕ} {reports : List TargetReport}
      (h : (c.underway settings (fun _ => false) cache schedule).Finished reports) :
      Reports settings c cache (.ofTargets reports)

/-- without a deadline there is one report only: every target as it is by itself -/
theorem Reports.eq {settings : Settings} {c : Configuration} {cache : PlanCache} {r : BatchReport}
    (hdeadline : settings.batch.deadline = none) (hany : c.AnySchedule settings (fun _ => false) cache)
    (h : Reports settings c cache r) : r = .ofTargets (c.ownReports settings fun _ => false) := by
  cases h with
  | inTurn =>
    have hlate : (fun _ : TypeRef => settings.batch.deadline == some 0) = fun _ => false := by rw [hdeadline]; rfl
    rw [resolve, hlate, hany.sequential]
  | underSchedule h => rw [hany.own _ _ h]

/-- the plan that a target resolves to -/
def plan? (settings : Settings) (c : Configuration) (e : TypeRef × List Fact) : Option Plan :=
  (MixinPlanner.resolve settings c.catalog e.1 e.2).toOption

/-- the plans that the targets resolve to, in the order of the targets -/
def ownPlans (settings : Settings) (c : Configuration) : List Plan := c.targets.toList.filterMap (c.plan? settings)

theorem resolve_of_plan? {settings : Settings} {c : Configuration} {e : TypeRef × List Fact} {p : Plan}
    (h : c.plan? settings e = some p) : MixinPlanner.resolve settings c.catalog e.1 e.2 = .ok p := by
  unfold plan? at h
  cases hresolve : MixinPlanner.resolve settings c.catalog e.1 e.2 with
  | error problems => rw [hresolve] at h; cases h
  | ok plan => rw [hresolve] at h; rw [Option.some.inj h]

/-- the plans of the targets that do not find the deadline passed, in the order of the targets -/
def freshPlans (settings : Settings) (late : TypeRef → Bool) (c : Configuration) : List Plan :=
  c.targets.toList.filterMap fun e => if late e.1 then none else c.plan? settings e

theorem mem_freshPlans {settings : Settings} {late : TypeRef → Bool} {c : Configuration} {f : Plan} :
    f ∈ c.freshPlans settings late ↔
      ∃ e ∈ c.targets, late e.1 = false ∧ MixinPlanner.resolve settings c.catalog e.1 e.2 = .ok f := by
  rw [freshPlans, List.mem_filterMap]
  refine exists_congr fun e => and_congr_right fun _ => ?_
  cases late e.1 with
  | true => simp
  | false => simpa using ⟨resolve_of_plan?, fun h => by rw [plan?, h]; rfl⟩

theorem freshPlans_ascending (settings : Settings) (late : TypeRef → Bool) (c : Configuration) :
    (c.freshPlans settings late).Pairwise fun p q => compare p.target q.target = .lt := by
  refine c.targets.ascending.filterMap _ fun e e' h p hp q hq => ?_
  have htarget : ∀ {e : TypeRef × List Fact} {p : Plan},
      (if late e.1 then none else c.plan? settings e) = some p → p.target = e.1 := by
    intro e p hp
    split_ifs at hp
    exact target_of_resolve (resolve_of_plan? hp)
  rw [htarget hp, htarget hq]
  exact h

/-- the plans of the targets that do not find the deadline passed, by target -/
def freshSet (settings : Settings) (late : TypeRef → Bool) (c : Configuration) : PlanSet :=
  ⟨c.freshPlans settings late, c.freshPlans_ascending settings late⟩

/-- what a report says of a target alone is whether it has a plan -/
theorem plan?_outcomeOf (settings : Settings) (late : TypeRef → Bool) (c : Configuration) (e : TypeRef × List Fact) :
    (Underway.outcomeOf settings c.catalog late e).plan? = if late e.1 then none else c.plan? settings e := by
  cases hlate : late e.1 with
  | true => simp [Underway.outcomeOf, hlate, Outcome.plan?]
  | false =>
    rw [Underway.outcomeOf, if_neg (by simp [hlate]), plan?]
    cases MixinPlanner.resolve settings c.catalog e.1 e.2 <;> rfl

theorem plans_ownReports (settings : Settings) (late : TypeRef → Bool) (c : Configuration) :
    (BatchReport.ofTargets (c.ownReports settings late)).plans = c.freshPlans settings late := by
  show (c.ownReports settings late).filterMap (fun t => t.outcome.plan?) = c.freshPlans settings late
  rw [ownReports, List.filterMap_map]
  exact List.filterMap_congr fun e _ => plan?_outcomeOf settings late c e

/-- the targets that have plans are the resolved ones -/
theorem targets_ownPlans (settings : Settings) (c : Configuration) :
    (c.ownPlans settings).map Plan.target =
      ((c.ownReports settings fun _ => false).filter fun t => t.outcome.plan?.isSome).map TargetReport.target := by
  rw [ownPlans, ownReports]
  induction c.targets.toList with
  | nil => rfl
  | cons e entries ih =>
    have houtcome : (Underway.outcomeOf settings c.catalog (fun _ => false) e).plan? = c.plan? settings e :=
      plan?_outcomeOf settings (fun _ => false) c e
    cases hplan : c.plan? settings e with
    | none =>
      rw [hplan] at houtcome
      simp [hplan, houtcome, ih]
    | some p =>
      rw [hplan] at houtcome
      simp [hplan, houtcome, ih, target_of_resolve (resolve_of_plan? hplan)]

theorem ownPlans_ascending (settings : Settings) (c : Configuration) :
    (c.ownPlans settings).Pairwise fun p q => compare p.target q.target = .lt :=
  c.freshPlans_ascending settings fun _ => false

/-- the plans that the targets resolve to, by target -/
def ownPlanSet (settings : Settings) (c : Configuration) : PlanSet := ⟨c.ownPlans settings, c.ownPlans_ascending settings⟩

theorem ownPlans_storable {settings : Settings} {c : Configuration} (hcatalog : Legible c.catalog.references)
    (htargets : ∀ e ∈ c.targets, Legible (e.1 :: e.2.flatMap Fact.references)) :
    ∀ p ∈ (c.ownPlanSet settings).toList, p.Storable := by
  intro p hp
  obtain ⟨e, he, hp⟩ := List.mem_filterMap.1 hp
  exact storable_of_resolve hcatalog (htargets e he) (resolve_of_plan? hp)

/-- the report of a batch without a deadline holds the plans of its targets -/
theorem Reports.plans {settings : Settings} {c : Configuration} {cache : PlanCache} {r : BatchReport}
    (hdeadline : settings.batch.deadline = none) (hany : c.AnySchedule settings (fun _ => false) cache)
    (h : Reports settings c cache r) : r.plans = (c.ownPlanSet settings).toList := by
  rw [h.eq hdeadline hany]
  exact plans_ownReports settings (fun _ => false) c

/-- the plans of a report are stored, and verified against another report -/
structure Verified (r fresh : BatchReport) (stored : PlanSet) : Prop where
  /-- the stored plans are those of the report -/
  planSet : r.planSet = .ok stored
  plans : stored.toList = r.plans
  /-- they are for the targets that the report has as resolved, in its order -/
  targets : stored.toList.map Plan.target =
    (r.targets.filter fun t => t.outcome.plan?.isSome).map TargetReport.target
  /-- collecting them one by one makes the same set, and never fails -/
  collected : r.giveAll PlanSet.collect .empty = (.ok (stored.toList.map Plan.contentHash), stored)
  /-- the store is read back -/
  read : PlanSet.read (utf8 stored.write) = .ok stored
  /-- the other report has plans too, and the stored ones have not drifted from them -/
  current : ∃ now, fresh.planSet = .ok now ∧ stored.drift now (fresh.unresolved now) = []

/-- **What a batch stores is what it resolves to again.** A configuration of legible references is resolved twice, without
a deadline, through caches that were filled by earlier uses. Whatever targets are rejected, the plans of the first report can
be collected, stored and read back, and the second report finds nothing in them to have drifted. -/
theorem stored_plans_verify {settings : Settings} (hdeadline : settings.batch.deadline = none) {c : Configuration}
    (hcatalog : Legible c.catalog.references)
    (htargets : ∀ e ∈ c.targets, Legible (e.1 :: e.2.flatMap Fact.references)) {earlier earlier' : List Inquiry}
    {cache cache' : PlanCache} (hearlier : ∀ q ∈ earlier ++ earlier', q.WellRead)
    (hfilled : PlanCache.Filled earlier cache) (hfilled' : PlanCache.Filled earlier' cache')
    (hfree : CollisionFree ((earlier ++ earlier' ++ c.inquiries settings).flatMap Inquiry.hashed))
    {r fresh : BatchReport} (hr : Reports settings c cache r) (hfresh : Reports settings c cache' fresh) :
    Verified r fresh (c.ownPlanSet settings) := by
  have hread : ∀ q ∈ earlier ++ earlier' ++ c.inquiries settings, q.WellRead := by
    intro q hq
    rcases List.mem_append.1 hq with hq | hq
    · exact hearlier q hq
    · obtain ⟨e, he, rfl⟩ := List.mem_map.1 hq
      exact ⟨⟨settings, e.1, e.2, htargets e he, rfl⟩, hcatalog⟩
  have hany : c.AnySchedule settings (fun _ => false) cache :=
    anySchedule _ hread hfree (hfilled.sound.mono fun q hq => by simp [hq]) fun q hq => by simp [hq]
  have hany' : c.AnySchedule settings (fun _ => false) cache' :=
    anySchedule _ hread hfree (hfilled'.sound.mono fun q hq => by simp [hq]) fun q hq => by simp [hq]
  have hplans := hr.plans hdeadline hany
  have hset : r.planSet = .ok (c.ownPlanSet settings) := by
    rw [BatchReport.planSet, hplans, PlanSet.ofPlans_toList]
  have hset' : fresh.planSet = .ok (c.ownPlanSet settings) := by
    rw [BatchReport.planSet, hfresh.plans hdeadline hany', PlanSet.ofPlans_toList]
  refine ⟨hset, hplans.symm, ?_, ?_, ?_, _, hset', PlanSet.drift_self _ _⟩
  · rw [hr.eq hdeadline hany]
    exact c.targets_ownPlans settings
  · rw [BatchReport.giveAll, hplans]
    exact PlanSet.collect_toList (c.ownPlanSet settings)
  · exact PlanSet.read_written (ownPlans_storable hcatalog htargets)

theorem sales_legible : Legible sales.catalog.references ∧
    ∀ e ∈ sales.targets, Legible (e.1 :: e.2.flatMap Fact.references) := by
  refine ⟨List.forall_mem_nil _, fun e he => ?_⟩
  have hmem : e ∈ [((⟨"Order", []⟩ : TypeRef), PlanCache.orderFacts), (⟨"Refund", []⟩, PlanCache.refundFacts)] := he
  rw [List.mem_cons, List.mem_singleton] at hmem
  rcases hmem with rfl | rfl
  · exact PlanCache.orderFacts_legible
  · exact PlanCache.refundFacts_legible

/-- the plan of the order is stored, and found again although the refund is rejected. The first batch finds the plan in the
cache, the second resolves it. -/
theorem sales_stored_verify :
    Verified (sales.resolve {} (PlanCache.ask .empty PlanCache.loggedOrder).2).1 (sales.resolve {} .empty).1
        (sales.ownPlanSet {}) ∧
      (sales.ownPlanSet {}).toList.map Plan.target = [⟨"Order", []⟩] := by
  have hearlier : ∀ q ∈ [PlanCache.loggedOrder] ++ [], q.WellRead := by
    simpa using PlanCache.loggedOrder_wellRead
  have hfilled : PlanCache.Filled [PlanCache.loggedOrder] (PlanCache.ask .empty PlanCache.loggedOrder).2 :=
    PlanCache.Filled.empty.ask _
  have hfree : CollisionFree (([PlanCache.loggedOrder] ++ [] ++ sales.inquiries {}).flatMap Inquiry.hashed) := by
    refine PlanCache.sampleStrings_collisionFree.mono (List.forall_mem_flatMap.2 ?_)
    simp only [sales_inquiries, List.cons_append, List.nil_append, List.forall_mem_cons]
    exact ⟨PlanCache.loggedOrder_hashed, PlanCache.loggedOrder_hashed, PlanCache.auditedRefund_hashed,
      List.forall_mem_nil _⟩
  obtain ⟨hcatalog, htargets⟩ := sales_legible
  exact ⟨stored_plans_verify rfl hcatalog htargets hearlier hfilled .empty hfree .inTurn .inTurn, rfl⟩

end Configuration

end MixinPlanner
