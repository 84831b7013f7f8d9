/-
What the drift of stored plans from fresh ones consists of.

Plans are compared by target. `Drifts` lists all that can be reported of one: a fresh plan that is not stored, two plans that
differ, and a stored plan without a fresh one, whose target is known not to resolve or is not known at all. No target is
reported twice, as the fresh plans are for different targets and the stored ones that are reported apart from them have no
fresh plan; so nothing gets lost when the reports are put in the order of their targets.
- `driftOfFresh_eq_some`, `driftOfStored_eq_some`: what one plan of either side contributes;
- `mem_drift`: what is reported in all.
-/
import Mathlib.Tactic
import MixinPlanner.Drift
import MixinPlanner.Proofs.Members

namespace MixinPlanner.PlanSet

/-- what is reported when stored plans are compared with fresh ones, where some targets are known not to resolve -/
inductive Drifts (stored fresh : PlanSet) (unresolved : List TypeRef) : Drift → Prop
  | missing {f : Plan} (hf : f ∈ fresh) (hstored : ∀ p ∈ stored, p.target ≠ f.target) :
      Drifts stored fresh unresolved (.missing f)
  | stale {p f : Plan} (hp : p ∈ stored) (hf : f ∈ fresh) (htarget : p.target = f.target) (hne : p ≠ f) :
      Drifts stored fresh unresolved (.stale p f)
  | rejected {p : Plan} (hp : p ∈ stored) (hfresh : ∀ f ∈ fresh, f.target ≠ p.target) (h : p.target ∈ unresolved) :
      Drifts stored fresh unresolved (.rejected p)
  | orphaned {p : Plan} (hp : p ∈ stored) (hfresh : ∀ f ∈ fresh, f.target ≠ p.target) (h : p.target ∉ unresolved) :
      Drifts stored fresh unresolved (.orphaned p)

variable {stored fresh : PlanSet} {unresolved : List TypeRef} {d : Drift}

/-- a fresh plan is reported as missing or as different from the stored one -/
theorem driftOfFresh_eq_some {f : Plan} : stored.driftOfFresh f = some d ↔
    (d = .missing f ∧ ∀ p ∈ stored, p.target ≠ f.target) ∨
      ∃ p ∈ stored, p.target = f.target ∧ p ≠ f ∧ d = .stale p f := by
  unfold driftOfFresh
  cases hfind : stored.find? f.target with
  | none =>
    have hnone := SortedBy.find?_eq_none_iff.1 hfind
    simp only [Option.some.injEq]
    constructor
    · rintro rfl
      exact .inl ⟨rfl, hnone⟩
    · rintro (⟨rfl, -⟩ | ⟨p, hp, htarget, -⟩)
      · rfl
      · exact absurd htarget (hnone p hp)
  | some p =>
    obtain ⟨hp, htarget⟩ := SortedBy.find?_eq_some_iff.1 hfind
    simp only
    constructor
    · intro h
      split_ifs at h with heq
      exact .inr ⟨p, hp, htarget, heq, (Option.some.inj h).symm⟩
    · rintro (⟨-, hnone⟩ | ⟨q, hq, hqtarget, hne, rfl⟩)
      · exact absurd htarget (hnone p hp)
      · obtain rfl : p = q := SortedBy.eq_of_key_eq hp hq (htarget.trans hqtarget.symm)
        rw [if_neg hne]

/-- a stored plan is reported by itself if there is no fresh one for its target -/
theorem driftOfStored_eq_some {p : Plan} : driftOfStored unresolved fresh p = some d ↔
    (∀ f ∈ fresh, f.target ≠ p.target) ∧
      (d = .rejected p ∧ p.target ∈ unresolved ∨ d = .orphaned p ∧ p.target ∉ unresolved) := by
  have hcontains : fresh.contains p.target = true ↔ ¬ ∀ f ∈ fresh, f.target ≠ p.target := by
    rw [SortedBy.contains_iff]
    push Not
    rfl
  unfold driftOfStored
  by_cases hfresh : ∀ f ∈ fresh, f.target ≠ p.target
  · rw [if_neg (fun h => hcontains.1 h hfresh), and_iff_right hfresh]
    by_cases hmem : p.target ∈ unresolved
    · simp [hmem, eq_comm]
    · simp [hmem, eq_comm]
  · rw [if_pos (hcontains.2 hfresh)]
    exact iff_of_false (by simp) fun h => hfresh h.1

/-- no target is reported twice -/
theorem drift_targets_nodup (stored fresh : PlanSet) (unresolved : List TypeRef) :
    ((fresh.toList.filterMap stored.driftOfFresh ++
      stored.toList.filterMap (driftOfStored unresolved fresh)).map Drift.target).Nodup := by
  have hfreshTarget : ∀ f d, stored.driftOfFresh f = some d → d.target = f.target := by
    intro f d h
    rcases driftOfFresh_eq_some.1 h with ⟨rfl, -⟩ | ⟨p, -, htarget, -, rfl⟩
    · rfl
    · exact htarget
  have hstoredTarget : ∀ p d, driftOfStored unresolved fresh p = some d → d.target = p.target := by
    intro p d h
    rcases (driftOfStored_eq_some.1 h).2 with ⟨rfl, -⟩ | ⟨rfl, -⟩ <;> rfl
  have hlt : ∀ t u : TypeRef, compare t u = .lt → t ≠ u := by
    rintro t _ h rfl
    simp at h
  rw [List.map_append, List.nodup_append]
  refine ⟨?_, ?_, ?_⟩
  · refine List.pairwise_map.2 (fresh.ascending.filterMap _ fun f f' hff' d hd d' hd' => hlt _ _ ?_)
    rwa [hfreshTarget f d hd, hfreshTarget f' d' hd']
  · refine List.pairwise_map.2 (stored.ascending.filterMap _ fun p p' hpp' d hd d' hd' => hlt _ _ ?_)
    rwa [hstoredTarget p d hd, hstoredTarget p' d' hd']
  · intro t ht u hu
    obtain ⟨d, hd, rfl⟩ := List.mem_map.1 ht
    obtain ⟨d', hd', rfl⟩ := List.mem_map.1 hu
    obtain ⟨f, hf, hd⟩ := List.mem_filterMap.1 hd
    obtain ⟨p, hp, hd'⟩ := List.mem_filterMap.1 hd'
    rw [hfreshTarget f d hd, hstoredTarget p d' hd']
    exact (driftOfStored_eq_some.1 hd').1 f hf

/-- **What is reported** is what `Drifts` lists. -/
theorem mem_drift : d ∈ stored.drift fresh unresolved ↔ Drifts stored fresh unresolved d := by
  have hmem : d ∈ stored.drift fresh unresolved ↔
      (∃ f ∈ fresh, stored.driftOfFresh f = some d) ∨ ∃ p ∈ stored, driftOfStored unresolved fresh p = some d := by
    refine (SortedBy.mem_ofList_iff (drift_targets_nodup stored fresh unresolved)).trans ?_
    rw [List.mem_append, List.mem_filterMap, List.mem_filterMap]
    rfl
  rw [hmem]
  constructor
  · rintro (⟨f, hf, h⟩ | ⟨p, hp, h⟩)
    · rcases driftOfFresh_eq_some.1 h with ⟨rfl, hstored⟩ | ⟨p, hp, htarget, hne, rfl⟩
      · exact .missing hf hstored
      · exact .stale hp hf htarget hne
    · obtain ⟨hfresh, hd⟩ := driftOfStored_eq_some.1 h
      rcases hd with ⟨rfl, hunresolved⟩ | ⟨rfl, hunresolved⟩
      · exact .rejected hp hfresh hunresolved
      · exact .orphaned hp hfresh hunresolved
  · intro h
    cases h with
    | missing hf hstored => exact .inl ⟨_, hf, driftOfFresh_eq_some.2 (.inl ⟨rfl, hstored⟩)⟩
    | stale hp hf htarget hne => exact .inl ⟨_, hf, driftOfFresh_eq_some.2 (.inr ⟨_, hp, htarget, hne, rfl⟩)⟩
    | rejected hp hfresh h => exact .inr ⟨_, hp, driftOfStored_eq_some.2 ⟨hfresh, .inl ⟨rfl, h⟩⟩⟩
    | orphaned hp hfresh h => exact .inr ⟨_, hp, driftOfStored_eq_some.2 ⟨hfresh, .inr ⟨rfl, h⟩⟩⟩

end MixinPlanner.PlanSet
