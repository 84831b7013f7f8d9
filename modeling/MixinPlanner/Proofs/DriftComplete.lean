/-
Stored plans are compared with fresh ones completely.

What there is to say of a target follows from the plans for it on either side (`owed`): nothing if they are the same or if
there are none, and one entry otherwise.
- `owed_eq_some_iff`: what is owed to a target is what can be reported of it;
- `drift_eq_mergeSort`: putting the reports of both sides in order drops none of them;
- `compared_completely`: the drift has just the entry that is owed to each target, in order, so it is empty exactly if the two
  sides are equal.
-/
import MixinPlanner.Proofs.DriftCases

namespace MixinPlanner.PlanSet

/-- the entry that a comparison owes to a target, with its class: by the plan stored for the target and the fresh one -/
def owed (unresolved : List TypeRef) (t : TypeRef) : Option Plan → Option Plan → Option (String × Drift)
  | none, none => none
  | none, some f => some ("plan.missing", .missing f)
  | some p, some f => if p = f then none else some ("plan.stale", .stale p f)
  | some p, none => some (if t ∈ unresolved then ("plan.rejected", .rejected p) else ("plan.orphaned", .orphaned p))

/-- nothing is owed to a target exactly if both sides have the same for it -/
theorem owed_eq_none_iff {unresolved : List TypeRef} {t : TypeRef} {p f : Option Plan} :
    owed unresolved t p f = none ↔ p = f := by
  cases p with
  | none => cases f <;> simp [owed]
  | some p =>
    cases f with
    | none => simp [owed]
    | some f => by_cases h : p = f <;> simp [owed, h]

variable {stored fresh : PlanSet} {unresolved : List TypeRef}

/-- what is owed to a target is what can be reported of it -/
theorem owed_eq_some_iff {t : TypeRef} {c : String} {d : Drift} :
    owed unresolved t (stored.find? t) (fresh.find? t) = some (c, d) ↔
      Drifts stored fresh unresolved d ∧ d.target = t ∧ c = d.className := by
  constructor
  · intro h
    cases hp : stored.find? t with
    | none =>
      have hstored := SortedBy.find?_eq_none_iff.1 hp
      cases hf : fresh.find? t with
      | none =>
        rw [hp, hf] at h
        cases h
      | some f =>
        obtain ⟨hf', rfl⟩ := SortedBy.find?_eq_some_iff.1 hf
        rw [hp, hf] at h
        cases h
        exact ⟨.missing hf' hstored, rfl, rfl⟩
    | some p =>
      obtain ⟨hp', rfl⟩ := SortedBy.find?_eq_some_iff.1 hp
      cases hf : fresh.find? p.target with
      | none =>
        have hfresh := SortedBy.find?_eq_none_iff.1 hf
        rw [hp, hf] at h
        by_cases hmem : p.target ∈ unresolved
        · simp only [owed, hmem, if_true] at h
          cases h
          exact ⟨.rejected hp' hfresh hmem, rfl, rfl⟩
        · simp only [owed, hmem, if_false] at h
          cases h
          exact ⟨.orphaned hp' hfresh hmem, rfl, rfl⟩
      | some f =>
        obtain ⟨hf', htarget⟩ := SortedBy.find?_eq_some_iff.1 hf
        rw [hp, hf] at h
        by_cases hne : p = f
        · simp only [owed, hne, if_true] at h
          cases h
        · simp only [owed, hne, if_false] at h
          cases h
          exact ⟨.stale hp' hf' htarget.symm hne, rfl, rfl⟩
  · rintro ⟨h, rfl, rfl⟩
    cases h with
    | @missing f hf hstored =>
      have hp : stored.find? f.target = none := SortedBy.find?_eq_none_iff.2 hstored
      have hf : fresh.find? f.target = some f := SortedBy.find?_eq_some_iff.2 ⟨hf, rfl⟩
      simp [owed, Drift.target, Drift.className, hp, hf]
    | @stale p f hp hf htarget hne =>
      have hp : stored.find? p.target = some p := SortedBy.find?_eq_some_iff.2 ⟨hp, rfl⟩
      have hf : fresh.find? p.target = some f := SortedBy.find?_eq_some_iff.2 ⟨hf, htarget.symm⟩
      simp [owed, Drift.target, Drift.className, hp, hf, hne]
    | @rejected p hp hfresh hmem =>
      have hp : stored.find? p.target = some p := SortedBy.find?_eq_some_iff.2 ⟨hp, rfl⟩
      have hf : fresh.find? p.target = none := SortedBy.find?_eq_none_iff.2 hfresh
      simp [owed, Drift.target, Drift.className, hp, hf, hmem]
    | @orphaned p hp hfresh hmem =>
      have hp : stored.find? p.target = some p := SortedBy.find?_eq_some_iff.2 ⟨hp, rfl⟩
      have hf : fresh.find? p.target = none := SortedBy.find?_eq_none_iff.2 hfresh
      simp [owed, Drift.target, Drift.className, hp, hf, hmem]

variable (stored fresh unresolved)

/-- the reports of the fresh plans, then of the stored ones, are only sorted by their targets: none of them gets lost -/
theorem drift_eq_mergeSort : stored.drift fresh unresolved =
    (fresh.toList.filterMap stored.driftOfFresh ++ stored.toList.filterMap (driftOfStored unresolved fresh)).mergeSort
      fun d d' => (compare d.target d'.target).isLE :=
  SortedBy.toList_ofList_eq_mergeSort (drift_targets_nodup stored fresh unresolved)

/-- the entries for a target are the one that it is owed -/
theorem drift_filter_target (t : TypeRef) :
    ((stored.drift fresh unresolved).filter fun d => d.target = t).map (fun d => (d.className, d)) =
      (owed unresolved t (stored.find? t) (fresh.find? t)).toList := by
  have hfilter : ((stored.drift fresh unresolved).filter fun d => d.target = t) = _ := SortedBy.filter_key _ t
  rw [hfilter, ← Option.toList_map]
  congr 1
  refine Option.ext fun ⟨c, d⟩ => ?_
  rw [owed_eq_some_iff, ← mem_drift, Option.map_eq_some_iff]
  constructor
  · rintro ⟨d', hd', heq⟩
    obtain ⟨rfl, rfl⟩ := Prod.mk.inj heq
    obtain ⟨hmem, htarget⟩ := SortedBy.find?_eq_some_iff.1 hd'
    exact ⟨hmem, htarget, rfl⟩
  · rintro ⟨hmem, htarget, rfl⟩
    exact ⟨d, SortedBy.find?_eq_some_iff.2 ⟨hmem, htarget⟩, rfl⟩

/-- **Plans are compared completely.** Nothing is reported exactly if the stored plans are the fresh ones. Otherwise the reports
come in strictly ascending order of their targets, and each target has the one that it is owed: none if both sides have the
same plan for it, or neither has one; it is missing if only a fresh one is there, stale if the two differ, and if only a stored
one is there, rejected or orphaned by whether the target is known not to resolve. The reports are those of the fresh plans
and then of the stored ones, sorted by their targets. -/
theorem compared_completely :
    (stored.drift fresh unresolved = [] ↔ stored = fresh) ∧
    (stored.drift fresh unresolved).Pairwise (fun d d' => compare d.target d'.target = .lt) ∧
    (∀ t, ((stored.drift fresh unresolved).filter fun d => d.target = t).map (fun d => (d.className, d)) =
      (owed unresolved t (stored.find? t) (fresh.find? t)).toList) ∧
    stored.drift fresh unresolved =
      (fresh.toList.filterMap stored.driftOfFresh ++ stored.toList.filterMap (driftOfStored unresolved fresh)).mergeSort
        fun d d' => (compare d.target d'.target).isLE := by
  have hentries := drift_filter_target stored fresh unresolved
  refine ⟨?_, SortedBy.ascending _, hentries, drift_eq_mergeSort stored fresh unresolved⟩
  constructor
  · intro hnil
    apply SortedBy.eq_of_find?_eq
    intro t
    have hnone : (owed unresolved t (stored.find? t) (fresh.find? t)).toList = [] := by
      rw [← hentries t, hnil]
      rfl
    exact owed_eq_none_iff.1 (Option.toList_eq_nil_iff.1 hnone)
  · rintro rfl
    rw [List.eq_nil_iff_forall_not_mem]
    intro d hd
    have hsome := owed_eq_some_iff.2 ⟨mem_drift.1 hd, rfl, rfl⟩
    rw [owed_eq_none_iff.2 rfl] at hsome
    cases hsome

end MixinPlanner.PlanSet
