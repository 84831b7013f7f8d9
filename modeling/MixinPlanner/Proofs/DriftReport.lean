/-
What a report of drift says, and where it says more than is known.

Stored plans are compared with those of a batch. The batch may resolve its targets in turn or under any schedule, and any of
them may find the deadline passed (`ReportsWhen`). Two things in the report go further than what was compared:
- a stored plan without a fresh one is reported as of a target that does not resolve wherever the batch has the target, so
  also if the target was deferred and nothing is known of it (`withdrawn_reported`);
- a stored plan is said to differ in nothing but warnings wherever it has the hash of the fresh one, so wherever both have the
  same order of mixins and the same complete interfaces; how the mixins are applied is not looked at (`same_hash_reported`).
-/
import Mathlib.Tactic
import MixinPlanner.Proofs.DriftCases
import MixinPlanner.Proofs.PlanHash

namespace MixinPlanner

/-- reports of tasks that have finished are for the targets of the tasks, in their order -/
theorem Underway.Finished.targets {s : Underway} {reports : List TargetReport} (h : s.Finished reports) :
    reports.map TargetReport.target = s.tasks.map fun t => t.entry.1 := by
  have hreport : ∀ t ∈ s.tasks, t.report?.map TargetReport.target = some t.entry.1 := by
    intro t ht
    obtain ⟨r, -, hr⟩ := h.exists_report ht
    rw [hr, (TargetTask.report?_eq_some.1 hr).1]
    rfl
  refine List.map_injective_iff.2 (Option.some_injective _) ?_
  calc (reports.map TargetReport.target).map some
      = (reports.map some).map (Option.map TargetReport.target) := by simp
    _ = (s.tasks.map TargetTask.report?).map (Option.map TargetReport.target) := by rw [h]
    _ = (s.tasks.map fun t => t.entry.1).map some := by
        rw [List.map_map, List.map_map]
        exact List.map_congr_left hreport

namespace Configuration

/-! ## Reports of a batch with a deadline -/

/-- the reports that a batch may end with where some targets find the deadline passed: of its targets in turn, or of its
targets under some schedule -/
inductive ReportsWhen (settings : Settings) (late : TypeRef → Bool) (c : Configuration) (cache : PlanCache) :
    BatchReport → Prop
  | inTurn : ReportsWhen settings late c cache (c.resolveWhen late settings cache).1
  | underSchedule {schedule : List ℕ} {reports : List TargetReport}
      (h : (c.underway settings late cache schedule).Finished reports) :
      ReportsWhen settings late c cache (.ofTargets reports)

/-- a batch of legible references on a cache that was filled by earlier uses, where no two of the hashed strings collide -/
structure WellPosed (settings : Settings) (c : Configuration) (uses : List Inquiry) (cache : PlanCache) : Prop where
  catalog : Legible c.catalog.references
  targets : ∀ e ∈ c.targets, Legible (e.1 :: e.2.flatMap Fact.references)
  wellRead : ∀ q ∈ uses, q.WellRead
  filled : PlanCache.Filled uses cache
  free : CollisionFree ((uses ++ c.inquiries settings).flatMap Inquiry.hashed)

section Batch

variable {settings : Settings} {late : TypeRef → Bool} {c : Configuration} {cache : PlanCache} {r : BatchReport}
  {uses : List Inquiry}

/-- resolving the targets in turn is one of the schedules -/
theorem ReportsWhen.exists_schedule (h : c.ReportsWhen settings late cache r) :
    ∃ schedule reports, (c.underway settings late cache schedule).Finished reports ∧ r = .ofTargets reports := by
  cases h with
  | inTurn => exact ⟨_, _, finished_turns settings late c cache, rfl⟩
  | underSchedule h => exact ⟨_, _, h, rfl⟩

/-- a batch reports its targets, each once and in their order -/
theorem ReportsWhen.targets (h : c.ReportsWhen settings late cache r) :
    r.targets.map TargetReport.target = c.targets.toList.map Prod.fst := by
  obtain ⟨schedule, reports, hfinished, rfl⟩ := h.exists_schedule
  have hentries : (c.underway settings late cache schedule).tasks.map TargetTask.entry = c.targets.toList := by
    rw [underway, Underway.entries_run]
    simp [Underway.start, Function.comp_def]
  show reports.map TargetReport.target = c.targets.toList.map Prod.fst
  rw [hfinished.targets, ← hentries, List.map_map]
  rfl

theorem WellPosed.anySchedule (h : c.WellPosed settings uses cache) (late : TypeRef → Bool) :
    c.AnySchedule settings late cache := by
  have hread : ∀ q ∈ uses ++ c.inquiries settings, q.WellRead := by
    refine List.forall_mem_append.2 ⟨h.wellRead, List.forall_mem_map.2 fun e he => ?_⟩
    exact ⟨⟨settings, e.1, e.2, h.targets e he, rfl⟩, h.catalog⟩
  exact Configuration.anySchedule late hread h.free (h.filled.sound.mono fun _ => List.mem_append_left _)
    fun _ => List.mem_append_right _

/-- every target is reported as it is by itself -/
theorem ReportsWhen.eq (h : c.ReportsWhen settings late cache r) (hc : c.WellPosed settings uses cache) :
    r = .ofTargets (c.ownReports settings late) := by
  have hany := hc.anySchedule late
  cases h with
  | inTurn => exact hany.sequential
  | underSchedule h => rw [hany.own _ _ h]

/-- the plans of a report never conflict -/
theorem ReportsWhen.planSet (h : c.ReportsWhen settings late cache r) (hc : c.WellPosed settings uses cache) :
    r.planSet = .ok (c.freshSet settings late) := by
  have hplans : r.plans = (c.freshSet settings late).toList := by
    rw [h.eq hc]
    exact plans_ownReports settings late c
  rw [BatchReport.planSet, hplans, PlanSet.ofPlans_toList]

/-- what was resolved can be stored -/
theorem storable_of_mem_freshSet (hc : c.WellPosed settings uses cache) : ∀ f ∈ c.freshSet settings late, f.Storable := by
  intro f hf
  obtain ⟨e, he, -, hresolve⟩ := mem_freshPlans.1 hf
  exact storable_of_resolve hc.catalog (hc.targets e he) hresolve

/-- a target that has no fresh plan was rejected, or deferred if it found the deadline passed -/
theorem ReportsWhen.outcome_of_no_plan (h : c.ReportsWhen settings late cache r) (hc : c.WellPosed settings uses cache)
    {t : TargetReport} (ht : t ∈ r.targets) (hfresh : ∀ f ∈ c.freshSet settings late, f.target ≠ t.target) :
    (t.outcome.isRejected = true ↔ late t.target = false) ∧ (t.outcome.isDeferred = true ↔ late t.target = true) := by
  rw [h.eq hc] at ht
  obtain ⟨e, he, rfl⟩ := List.mem_map.1 ht
  cases hlate : late e.1 with
  | true => simp [Underway.outcomeOf, hlate, Outcome.isRejected, Outcome.isDeferred]
  | false =>
    cases hresolve : MixinPlanner.resolve settings c.catalog e.1 e.2 with
    | error problems =>
      simp [Underway.outcomeOf, hlate, hresolve, Outcome.ofResult, Outcome.isRejected, Outcome.isDeferred]
    | ok f => exact absurd (target_of_resolve hresolve) (hfresh f (mem_freshPlans.2 ⟨e, he, hlate, hresolve⟩))

end Batch

end Configuration

/-! ## Stored plans without a fresh one -/

section Withdrawn

variable {r : BatchReport} {stored fresh : PlanSet} {p : Plan}

theorem BatchReport.mem_unresolved {t : TypeRef} :
    t ∈ r.unresolved fresh ↔ (∃ x ∈ r.targets, x.target = t) ∧ ∀ f ∈ fresh, f.target ≠ t := by
  have hcontains : (!fresh.contains t) = true ↔ ∀ f ∈ fresh, f.target ≠ t := by
    rw [Bool.not_eq_true', ← Bool.not_eq_true, SortedBy.contains_iff]
    push Not
    rfl
  rw [BatchReport.unresolved, List.mem_filter, List.mem_map, hcontains]

/-- a stored plan without a fresh one is reported as rejected if its target was reported on at all -/
theorem PlanSet.rejected_mem_drift (hp : p ∈ stored) (hfresh : ∀ f ∈ fresh, f.target ≠ p.target) :
    .rejected p ∈ stored.drift fresh (r.unresolved fresh) ↔ ∃ t ∈ r.targets, t.target = p.target := by
  rw [PlanSet.mem_drift]
  constructor
  · intro h
    cases h with
    | rejected _ _ h => exact (BatchReport.mem_unresolved.1 h).1
  · exact fun h => .rejected hp hfresh (BatchReport.mem_unresolved.2 ⟨h, hfresh⟩)

theorem PlanSet.orphaned_mem_drift (hp : p ∈ stored) (hfresh : ∀ f ∈ fresh, f.target ≠ p.target) :
    .orphaned p ∈ stored.drift fresh (r.unresolved fresh) ↔ ¬ ∃ t ∈ r.targets, t.target = p.target := by
  rw [PlanSet.mem_drift]
  constructor
  · intro h htarget
    cases h with
    | orphaned _ _ h => exact h (BatchReport.mem_unresolved.2 ⟨htarget, hfresh⟩)
  · exact fun h => .orphaned hp hfresh fun hmem => h (BatchReport.mem_unresolved.1 hmem).1

end Withdrawn

namespace Configuration

open PlanSet (loggedPlan loggedPlan_mem)

/-- **Stored plans without a fresh one.** Such a plan is reported as of a target that does not resolve any more exactly if the
batch has its target, and else as of a target without facts. If the hashed strings do not collide, the target was then
rejected, or deferred because it found the deadline passed. The report of drift does not tell the two apart, so it says that a
target does not resolve exactly if the target was rejected wherever the target was not deferred, and nowhere else. -/
theorem withdrawn_reported {settings : Settings} {late : TypeRef → Bool} {c : Configuration} {cache : PlanCache}
    {r : BatchReport} (hr : c.ReportsWhen settings late cache r) {stored : PlanSet} {p : Plan} (hp : p ∈ stored) :
    (∀ fresh : PlanSet, (∀ f ∈ fresh, f.target ≠ p.target) →
      (.rejected p ∈ stored.drift fresh (r.unresolved fresh) ↔ ∃ e ∈ c.targets, e.1 = p.target) ∧
      (.orphaned p ∈ stored.drift fresh (r.unresolved fresh) ↔ ¬ ∃ e ∈ c.targets, e.1 = p.target)) ∧
    ∀ uses, c.WellPosed settings uses cache → ∃ fresh, r.planSet = .ok fresh ∧ ((∀ f ∈ fresh, f.target ≠ p.target) →
      (.rejected p ∈ stored.drift fresh (r.unresolved fresh) ↔
        ∃ t ∈ r.targets, t.target = p.target ∧ (t.outcome.isRejected = true ∨ t.outcome.isDeferred = true)) ∧
      ((.rejected p ∈ stored.drift fresh (r.unresolved fresh) ↔
          ∃ t ∈ r.targets, t.target = p.target ∧ t.outcome.isRejected = true) ↔
        ∀ t ∈ r.targets, t.target = p.target → t.outcome.isDeferred = false)) := by
  constructor
  · intro fresh hfresh
    have htarget : (∃ t ∈ r.targets, t.target = p.target) ↔ ∃ e ∈ c.targets, e.1 = p.target := by
      rw [← List.mem_map, hr.targets, List.mem_map]
      rfl
    rw [PlanSet.rejected_mem_drift hp hfresh, PlanSet.orphaned_mem_drift hp hfresh, htarget]
    exact ⟨Iff.rfl, Iff.rfl⟩
  · intro uses hc
    refine ⟨_, hr.planSet hc, fun hfresh => ?_⟩
    have houtcome : ∀ t ∈ r.targets, t.target = p.target →
        (t.outcome.isRejected = true ↔ late p.target = false) ∧ (t.outcome.isDeferred = true ↔ late p.target = true) := by
      intro t ht htarget
      have hone := hr.outcome_of_no_plan hc ht (htarget ▸ hfresh)
      rwa [htarget] at hone
    rw [PlanSet.rejected_mem_drift hp hfresh]
    refine ⟨exists_congr fun t => and_congr_right fun ht => ?_, ?_, ?_⟩
    · refine (and_iff_left_of_imp fun htarget => ?_).symm
      obtain ⟨hrejected, hdeferred⟩ := houtcome t ht htarget
      rw [hrejected, hdeferred]
      cases late p.target <;> simp
    · intro h t ht htarget
      obtain ⟨t', ht', htarget', hrejected⟩ := h.1 ⟨t, ht, htarget⟩
      have hlate := (houtcome t' ht' htarget').1.1 hrejected
      rw [← Bool.not_eq_true, (houtcome t ht htarget).2, hlate]
      exact Bool.false_ne_true
    · intro hdeferred
      refine exists_congr fun t => and_congr_right fun ht => (and_iff_left_of_imp fun htarget => ?_).symm
      rw [(houtcome t ht htarget).1, ← Bool.not_eq_true, ← (houtcome t ht htarget).2, hdeferred t ht htarget]
      exact Bool.false_ne_true

theorem sales_wellPosed (batch : BatchSettings) : sales.WellPosed { batch } [] .empty := by
  refine ⟨sales_legible.1, sales_legible.2, List.forall_mem_nil _, .empty, ?_⟩
  have hinquiries : sales.inquiries { batch } =
      [{ PlanCache.loggedOrder with settings := { batch } }, { PlanCache.auditedRefund with settings := { batch } }] := rfl
  refine PlanCache.sampleStrings_collisionFree.mono (List.forall_mem_flatMap.2 ?_)
  rw [List.nil_append, hinquiries, List.forall_mem_cons, List.forall_mem_singleton]
  exact ⟨PlanCache.loggedOrder_hashed, PlanCache.auditedRefund_hashed⟩

/-- settings under which every target finds the deadline passed -/
def noTime : Settings := { batch := { deadline := some 0 } }

theorem noTime_targets : (sales.resolve noTime .empty).1.targets =
    [⟨⟨"Order", []⟩, .deferred⟩, ⟨⟨"Refund", []⟩, .deferred⟩] := rfl

/-- nothing is known of the order, and yet its plan is reported as one that does not resolve any more -/
theorem deferredSales_withdrawn : sales.ReportsWhen noTime (fun _ => true) .empty (sales.resolve noTime .empty).1 ∧
    sales.WellPosed noTime [] .empty ∧ loggedPlan ∈ sales.ownPlanSet {} ∧
      (sales.resolve noTime .empty).1.targets = [⟨⟨"Order", []⟩, .deferred⟩, ⟨⟨"Refund", []⟩, .deferred⟩] ∧
        ∃ fresh, (sales.resolve noTime .empty).1.planSet = .ok fresh ∧ (∀ f ∈ fresh, f.target ≠ loggedPlan.target) ∧
          .rejected loggedPlan ∈ (sales.ownPlanSet {}).drift fresh ((sales.resolve noTime .empty).1.unresolved fresh) := by
  have hinTurn : sales.ReportsWhen noTime (fun _ => true) .empty (sales.resolve noTime .empty).1 := .inTurn
  have hwellPosed : sales.WellPosed noTime [] .empty := sales_wellPosed { deadline := some 0 }
  obtain ⟨-, hreported⟩ := withdrawn_reported hinTurn loggedPlan_mem
  obtain ⟨fresh, hfresh, hstored⟩ := hreported [] hwellPosed
  have hempty : fresh = .empty := (Except.ok.inj hfresh).symm
  have hnone : ∀ f ∈ fresh, f.target ≠ loggedPlan.target := by
    rw [hempty]
    exact List.forall_mem_nil _
  have horder : ⟨⟨"Order", []⟩, .deferred⟩ ∈ (sales.resolve noTime .empty).1.targets := List.mem_cons_self
  refine ⟨hinTurn, hwellPosed, loggedPlan_mem, noTime_targets, fresh, hfresh, hnone, ?_⟩
  exact (hstored hnone).1.2 ⟨_, horder, rfl, .inr rfl⟩

/-- a plan is not only reported as rejected where its target was rejected -/
theorem not_only_rejected : ¬ ∀ (settings : Settings) (c : Configuration) (stored fresh : PlanSet),
    (c.resolve settings .empty).1.planSet = .ok fresh → ∀ p ∈ stored, (∀ f ∈ fresh, f.target ≠ p.target) →
      (.rejected p ∈ stored.drift fresh ((c.resolve settings .empty).1.unresolved fresh) ↔
        ∃ t ∈ (c.resolve settings .empty).1.targets, t.target = p.target ∧ t.outcome.isRejected = true) := by
  intro hall
  have hnone : ∀ f ∈ (SortedBy.empty : PlanSet), f.target ≠ loggedPlan.target := List.forall_mem_nil _
  have horder : ⟨⟨"Order", []⟩, .deferred⟩ ∈ (sales.resolve noTime .empty).1.targets := List.mem_cons_self
  have hreported := (PlanSet.rejected_mem_drift loggedPlan_mem hnone).2 ⟨_, horder, rfl⟩
  obtain ⟨t, ht, -, hrejected⟩ := (hall noTime sales _ .empty rfl _ loggedPlan_mem hnone).1 hreported
  rw [noTime_targets, List.mem_cons, List.mem_singleton] at ht
  rcases ht with rfl | rfl <;> cases hrejected

end Configuration

/-! ## Stored plans under the hash of the fresh one -/

/-- no digit of a digest is an `s` -/
theorem Sha256.ne_of_mem_hex {message : List UInt8} {c : Char} (h : c ∈ (hex message).toList) : c ≠ 's' := by
  have hdigit : ∀ n < 16, Nat.digitChar n ≠ 's' := by decide
  rw [hex_toList, List.mem_flatMap] at h
  obtain ⟨w, -, h⟩ := h
  obtain ⟨b, -, h⟩ := List.mem_flatMap.1 h
  have hb := b.toNat_lt
  simp only [hexByte, List.mem_cons, List.not_mem_nil, or_false] at h
  rcases h with rfl | rfl
  · exact hdigit _ (by omega)
  · exact hdigit _ (by omega)

/-- the short form of a hash begins as the hash does -/
theorem ContentHash.exists_short {h : ContentHash} {c : Char} {cs : List Char} (htext : h.text.toList = c :: cs) :
    ∃ rest, h.short.toList = c :: rest := by
  have hsize : c.utf8Size ≤ 11 + 1 := c.utf8Size_le_four.trans (by decide)
  unfold short
  rw [htext, takeBytes, if_pos hsize]
  cases takeBytes cs (11 + 1 - c.utf8Size) with
  | none => exact ⟨cs, htext⟩
  | some front => exact ⟨front, String.toList_ofList⟩

/-- a stale plan is said to differ in warnings only exactly if it has the hash of the fresh one -/
theorem Drift.message_stale_iff {p f : Plan} (hp : p.computeHash = p.contentHash) :
    (stale p f).message = p.contentHash.short ++ " differs only in warnings" ↔ p.contentHash = f.contentHash := by
  refine ⟨fun h => ?_, fun h => by rw [message, if_pos h]⟩
  by_contra hne
  -- the other message begins with a letter that no hash begins with
  obtain ⟨c, cs, htext⟩ : ∃ c cs, p.contentHash.text.toList = c :: cs := by
    have hlength := Sha256.hex_length p.hashed
    rw [← hp]
    exact List.exists_cons_of_length_pos (by rw [Plan.computeHash_eq, ContentHash.ofBytes, hlength]; decide)
  obtain ⟨rest, hshort⟩ := ContentHash.exists_short htext
  rw [message, if_neg hne] at h
  have hchars := congrArg String.toList h
  simp only [String.toList_append, hshort, List.cons_append] at hchars
  have hc : c ∈ (Sha256.hex p.hashed).toList := by
    have hmem : c ∈ p.contentHash.text.toList := by rw [htext]; exact List.mem_cons_self
    rwa [← hp] at hmem
  exact Sha256.ne_of_mem_hex hc (List.cons.inj hchars).1.symm

namespace PlanSet

open MixinPlanner.Configuration (sales sales_wellPosed storable_of_mem_freshSet)

/-- plans that can be stored have one hash exactly if they are for one target, with the same order of mixins and the same
complete interfaces, unless the hashed strings collide -/
theorem contentHash_eq_iff {p f : Plan} (hp : p.Storable) (hf : f.Storable) (hfree : CollisionFree [p.hashed, f.hashed]) :
    p.contentHash = f.contentHash ↔
      p.target = f.target ∧ p.order = f.order ∧ p.completeInterfaces = f.completeInterfaces := by
  rw [← hp.hash, ← hf.hash]
  constructor
  · intro h
    have hhashed : p.hashed = f.hashed := hfree.eq_of_hash (by simp) (by simp) h
    exact Plan.hashed_inj (p.storable_iff.1 hp).1 (f.storable_iff.1 hf).1 hhashed
  · rintro ⟨htarget, horder, hcomplete⟩
    rw [Plan.computeHash, Plan.computeHash, htarget, horder, hcomplete]

/-- two plans differ in nothing but warnings and the status that follows from them -/
theorem withWarnings_eq_iff {p f : Plan} : p.withWarnings [] = f.withWarnings [] ↔ p.schema = f.schema ∧
    p.target = f.target ∧ p.mixins = f.mixins ∧ p.completeInterfaces = f.completeInterfaces ∧
      p.contentHash = f.contentHash := by
  simp [Plan.withWarnings]

/-- **Stored plans that are said to differ in warnings only.** If the hashed strings do not collide, this is said of a stored
plan that differs from the fresh one exactly if both have the same order of mixins and the same complete interfaces. It is
true exactly if the mixins are applied alike too: as the same kind, equally visible, with the same dependencies and bringing
the same interfaces. -/
theorem same_hash_reported {settings : Settings} {late : TypeRef → Bool} {c : Configuration} {uses : List Inquiry}
    {cache : PlanCache} {r : BatchReport} (hc : c.WellPosed settings uses cache) (hr : c.ReportsWhen settings late cache r)
    {bytes : List UInt8} {stored : PlanSet} (hread : read bytes = .ok stored) :
    ∃ fresh, r.planSet = .ok fresh ∧ ∀ p f, .stale p f ∈ stored.drift fresh (r.unresolved fresh) →
      CollisionFree [p.hashed, f.hashed] →
        ((Drift.stale p f).message = p.contentHash.short ++ " differs only in warnings" ↔
          p.order = f.order ∧ p.completeInterfaces = f.completeInterfaces) ∧
        ((Drift.stale p f).message = p.contentHash.short ++ " differs only in warnings" →
          (p.withWarnings [] = f.withWarnings [] ↔ p.mixins = f.mixins)) := by
  refine ⟨_, hr.planSet hc, fun p f hdrift hfree => ?_⟩
  cases mem_drift.1 hdrift with
  | stale hp hf htarget _ =>
    have hstorable := storable_of_read hread p hp
    have hresolved := storable_of_mem_freshSet hc f hf
    have hhash := contentHash_eq_iff hstorable hresolved hfree
    rw [Drift.message_stale_iff hstorable.hash]
    refine ⟨by rw [hhash, and_iff_right htarget], fun h => ?_⟩
    rw [withWarnings_eq_iff]
    obtain ⟨-, -, hcomplete⟩ := hhash.1 h
    exact ⟨fun hall => hall.2.2.1,
      fun hmixins => ⟨hstorable.schema.trans hresolved.schema.symm, htarget, hmixins, hcomplete, h⟩⟩

/-- the order of the sales configuration with its logging applied otherwise, and a catalog that knows of both -/
def auditedSales : Configuration where
  catalog := .ofList [.ofInterface "Audited", .implementing (.ofClass "Order") ⟨"Audited", []⟩,
    .implementing (.ofClass "Logging") ⟨"Traced", []⟩]
  targets := .ofList [(⟨"Order", []⟩,
    [.mixin { mixin := ⟨"Logging", []⟩, kind := .used, visibility := .hidden, dependencies := [⟨"Audited", []⟩] }])]

/-- its plan -/
def auditedPlan : Plan :=
  { loggedPlan with
    mixins := [{ mixin := ⟨"Logging", []⟩, kind := .used, visibility := .hidden, dependencies := [⟨"Audited", []⟩]
                 introducedInterfaces := [⟨"Traced", []⟩] }] }

theorem auditedPlan_mem : auditedPlan ∈ auditedSales.ownPlanSet {} := by
  show auditedPlan ∈ [auditedPlan]
  exact List.mem_singleton_self _

/-- its store is read, and against the sales configuration its plan is one that is not the plan resolved there -/
theorem auditedSales_drift : read (utf8 (auditedSales.ownPlanSet {}).write) = .ok (auditedSales.ownPlanSet {}) ∧
    (sales.resolve {} .empty).1.planSet = .ok (sales.freshSet {} fun _ => false) ∧
      .stale auditedPlan loggedPlan ∈ (auditedSales.ownPlanSet {}).drift (sales.freshSet {} fun _ => false)
        ((sales.resolve {} .empty).1.unresolved (sales.freshSet {} fun _ => false)) := by
  have hlegible : Legible auditedPlan.references := by
    have hvalid : ∀ n, isName n = true → TypeRef.Valid ⟨n, []⟩ := fun n hn => ⟨hn, trivial⟩
    refine legible_cons.2 ⟨hvalid "Order" (by decide), legible_cons.2 ⟨hvalid "Logging" (by decide), ?_⟩⟩
    refine legible_cons.2 ⟨hvalid "Audited" (by decide), legible_cons.2 ⟨hvalid "Traced" (by decide), ?_⟩⟩
    exact List.forall_mem_nil _
  have hstorable : ∀ p ∈ (auditedSales.ownPlanSet {}).toList, p.Storable := by
    show ∀ p ∈ [auditedPlan], p.Storable
    rw [List.forall_mem_singleton]
    exact auditedPlan.storable_iff.2 ⟨hlegible, rfl, rfl⟩
  have hinTurn : sales.ReportsWhen {} (fun _ => false) .empty (sales.resolve {} .empty).1 := .inTurn
  exact ⟨read_written hstorable, hinTurn.planSet (sales_wellPosed {}),
    mem_drift.2 (.stale auditedPlan_mem loggedPlan_mem rfl (by decide))⟩

/-- the plan of the order is said to differ in warnings only, though everything about its mixin is different -/
theorem auditedPlan_reported : sales.WellPosed {} [] .empty ∧
    read (utf8 (auditedSales.ownPlanSet {}).write) = .ok (auditedSales.ownPlanSet {}) ∧
      CollisionFree [auditedPlan.hashed, loggedPlan.hashed] ∧
        (Drift.stale auditedPlan loggedPlan).message =
          auditedPlan.contentHash.short ++ " differs only in warnings" ∧
        auditedPlan.withWarnings [] ≠ loggedPlan.withWarnings [] := by
  obtain ⟨hread, hfresh, hdrift⟩ := auditedSales_drift
  have hwellPosed : sales.WellPosed {} [] .empty := sales_wellPosed {}
  have hinTurn : sales.ReportsWhen {} (fun _ => false) .empty (sales.resolve {} .empty).1 := .inTurn
  have hsame : auditedPlan.hashed = loggedPlan.hashed := rfl
  have hfree : CollisionFree [auditedPlan.hashed, loggedPlan.hashed] := by
    rw [hsame]
    intro a ha b hb _
    simp_all
  obtain ⟨fresh, hplanSet, hreported⟩ := same_hash_reported hwellPosed hinTurn hread
  obtain rfl := Except.ok.inj (hplanSet.symm.trans hfresh)
  obtain ⟨hmessage, honly⟩ := hreported _ _ hdrift hfree
  have hsaid := hmessage.2 ⟨rfl, rfl⟩
  exact ⟨hwellPosed, hread, hfree, hsaid, fun h => absurd ((honly hsaid).1 h) (by decide)⟩

/-- plans are not only said to differ in warnings where they do -/
theorem not_only_warnings : ¬ ∀ (settings : Settings) (c : Configuration) (bytes : List UInt8) (stored fresh : PlanSet),
    read bytes = .ok stored → (c.resolve settings .empty).1.planSet = .ok fresh →
      ∀ p f, .stale p f ∈ stored.drift fresh ((c.resolve settings .empty).1.unresolved fresh) →
        (Drift.stale p f).message = p.contentHash.short ++ " differs only in warnings" →
          p.withWarnings [] = f.withWarnings [] := by
  intro hall
  obtain ⟨hread, hfresh, hdrift⟩ := auditedSales_drift
  have hsaid := (Drift.message_stale_iff (f := loggedPlan) (auditedPlan.storable_iff.1
    (storable_of_read hread auditedPlan auditedPlan_mem)).2.2).2 rfl
  have hmixins := (withWarnings_eq_iff.1 (hall _ _ _ _ _ hread hfresh _ _ hdrift hsaid)).2.2.1
  exact absurd hmixins (by decide)

end PlanSet

end MixinPlanner
