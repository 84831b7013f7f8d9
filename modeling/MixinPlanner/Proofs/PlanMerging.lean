/-
What sets of plans are under merging: partial unions.

Plans added in turn are joined to the set, up to the first for whose target another plan is there. A list of plans makes a
set exactly if those for one target are the same plan, and the set is that of its members, so their order and repetitions
are forgotten. Two sets have a union exactly if they agree on their common targets. Where they do not, merging ends at the
smallest target on which they differ, and the second set has been joined below it.
- `add_cases`, `addAll_cases`: what adding a plan can do, and the two ends of a run over plans;
- `merge_cases`: the two ends of merging, where the plans come in the order of their targets;
- `plan_sets_merge`: what lists of plans make, and the laws of merging.
-/
import Mathlib.Tactic
import MixinPlanner.Plan
import MixinPlanner.Proofs.Members

namespace MixinPlanner.PlanSet

open Std

variable {s a b c : PlanSet} {ps qs : List Plan} {k : PlanConflict}

/-! ## Plans added in turn -/

/-- what adding a plan does: it is new, or it is there already, or another plan is there for its target -/
theorem add_cases (s : PlanSet) (p : Plan) :
    ((∀ q ∈ s, q.target ≠ p.target) ∧ s.add p = .ok (s.insert p)) ∨ (p ∈ s ∧ s.add p = .ok s) ∨
      ∃ q ∈ s, q.target = p.target ∧ q ≠ p ∧ s.add p = .error ⟨p.target, q.contentHash, p.contentHash⟩ := by
  cases hfind : s.find? p.target with
  | none => exact .inl ⟨SortedBy.find?_eq_none_iff.1 hfind, by simp only [add, hfind]⟩
  | some q =>
    obtain ⟨hq, htarget⟩ := SortedBy.find?_eq_some_iff.1 hfind
    by_cases hqp : q = p
    · exact .inr (.inl ⟨hqp ▸ hq, by simp only [add, hfind, if_pos hqp]⟩)
    · exact .inr (.inr ⟨q, hq, htarget, hqp, by simp only [add, hfind, if_neg hqp]⟩)

/-- a run over plans ends at one of them: those before it were joined to the set, and another plan is there for its target -/
inductive Stops (s : PlanSet) : List Plan → PlanSet → PlanConflict → Prop
  | mk {before after : List Plan} {p q : Plan} {s' : PlanSet} (hjoined : ∀ r, r ∈ s' ↔ r ∈ s ∨ r ∈ before) (hq : q ∈ s')
      (htarget : q.target = p.target) (h : q ≠ p) :
      Stops s (before ++ p :: after) s' ⟨p.target, q.contentHash, p.contentHash⟩

/-- a plan more in front that was joined first -/
theorem Stops.cons {s₁ s' : PlanSet} {p : Plan} (hs₁ : ∀ r, r ∈ s₁ ↔ r ∈ s ∨ r = p) (h : Stops s₁ ps s' k) :
    Stops s (p :: ps) s' k := by
  cases h with
  | @mk before after p' q s' hjoined hq htarget h =>
    have hjoined' : ∀ r, r ∈ s' ↔ r ∈ s ∨ r ∈ p :: before := by
      intro r
      rw [hjoined, hs₁, List.mem_cons, or_assoc]
    exact .mk hjoined' hq htarget h

/-- **The ends of a run over plans.** All are joined to the set; or the run ends at the first with another plan for its
target. -/
theorem addAll_cases (s : PlanSet) (ps : List Plan) :
    (∃ s', s.addAll ps = (s', none) ∧ ∀ r, r ∈ s' ↔ r ∈ s ∨ r ∈ ps) ∨
      ∃ s' k, s.addAll ps = (s', some k) ∧ Stops s ps s' k := by
  induction ps generalizing s with
  | nil => exact .inl ⟨s, rfl, by simp⟩
  | cons p ps ih =>
    -- a plan that is joined leaves the rest of the run to the set with it
    have hjoin : ∀ s₁, s.add p = .ok s₁ → (∀ r, r ∈ s₁ ↔ r ∈ s ∨ r = p) →
        (∃ s', s.addAll (p :: ps) = (s', none) ∧ ∀ r, r ∈ s' ↔ r ∈ s ∨ r ∈ p :: ps) ∨
          ∃ s' k, s.addAll (p :: ps) = (s', some k) ∧ Stops s (p :: ps) s' k := by
      intro s₁ hadd hs₁
      simp only [addAll, hadd]
      rcases ih s₁ with ⟨s', hall, hs'⟩ | ⟨s', k, hall, hstops⟩
      · refine .inl ⟨s', hall, fun r => ?_⟩
        rw [hs', hs₁, List.mem_cons, or_assoc]
      · exact .inr ⟨s', k, hall, hstops.cons hs₁⟩
    rcases s.add_cases p with ⟨hnew, hadd⟩ | ⟨hp, hadd⟩ | ⟨q, hq, htarget, hne, hadd⟩
    · refine hjoin _ hadd fun r => ?_
      rw [SortedBy.mem_insert_iff, or_comm]
      exact or_congr_left (and_iff_left_of_imp fun hr => (hnew r hr).symm)
    · refine hjoin _ hadd fun r => ?_
      rw [iff_self_or]
      rintro rfl
      exact hp
    · have hstops : Stops s ([] ++ p :: ps) s ⟨p.target, q.contentHash, p.contentHash⟩ :=
        .mk (by simp) hq htarget hne
      exact .inr ⟨s, _, by simp only [addAll, hadd], hstops⟩

/-- a plan is refused when another is there for its target -/
theorem add_eq_error_iff {p : Plan} : s.add p = .error k ↔
    ∃ q ∈ s, q.target = p.target ∧ q ≠ p ∧ k = ⟨p.target, q.contentHash, p.contentHash⟩ := by
  constructor
  · intro h
    rcases s.add_cases p with ⟨-, hadd⟩ | ⟨-, hadd⟩ | ⟨q, hq, htarget, hne, hadd⟩
    · rw [hadd] at h
      cases h
    · rw [hadd] at h
      cases h
    · rw [hadd, Except.error.injEq] at h
      exact ⟨q, hq, htarget, hne, h.symm⟩
  · rintro ⟨q, hq, htarget, hne, rfl⟩
    have hfind : s.find? p.target = some q := SortedBy.find?_eq_some_iff.2 ⟨hq, htarget⟩
    simp only [add, hfind, if_neg hne]

/-! ## Sets of plans -/

/-- a set holds some plans and no others -/
def Holds (s : PlanSet) (ps : List Plan) : Prop := ∀ p, p ∈ s ↔ p ∈ ps

/-- plans that stand in one set: those for one target are the same plan -/
def Agree (ps : List Plan) : Prop := ∀ p ∈ ps, ∀ q ∈ ps, p.target = q.target → p = q

theorem Holds.agree (h : s.Holds ps) : Agree ps :=
  fun p hp q hq htarget => SortedBy.eq_of_key_eq ((h p).2 hp) ((h q).2 hq) htarget

theorem Stops.not_agree {s' : PlanSet} (h : Stops SortedBy.empty ps s' k) : ¬ Agree ps := by
  cases h with
  | @mk before after p q s' hjoined hq htarget h =>
    intro hps
    have hqs : q ∈ before := ((hjoined q).1 hq).resolve_left List.not_mem_nil
    exact h (hps q (List.mem_append_left _ hqs) p (by simp) htarget)

/-- what a list of plans makes: the set of its members, or nothing if some of them do not agree -/
theorem ofPlans_cases (ps : List Plan) :
    (∃ s, ofPlans ps = .ok s ∧ s.Holds ps) ∨ ∃ k, ofPlans ps = .error k ∧ ¬ Agree ps := by
  rcases addAll_cases SortedBy.empty ps with ⟨s, hall, hs⟩ | ⟨s, k, hall, hstops⟩
  · refine .inl ⟨s, by simp only [ofPlans, hall], fun p => ?_⟩
    exact (hs p).trans (or_iff_right List.not_mem_nil)
  · exact .inr ⟨k, by simp only [ofPlans, hall], hstops.not_agree⟩

theorem ofPlans_eq_ok_iff : ofPlans ps = .ok s ↔ s.Holds ps := by
  rcases ofPlans_cases ps with ⟨s', hof, hs'⟩ | ⟨k, hof, hps⟩
  · rw [hof, Except.ok.injEq]
    constructor
    · rintro rfl
      exact hs'
    · exact fun hs => SortedBy.eq_of_mem_iff fun p => (hs' p).trans (hs p).symm
  · rw [hof]
    exact iff_of_false (by simp) fun hs => hps hs.agree

/-- a set is made again of its plans -/
theorem ofPlans_toList (s : PlanSet) : ofPlans s.toList = .ok s := ofPlans_eq_ok_iff.2 fun _ => Iff.rfl

theorem exists_ofPlans_iff : (∃ s, ofPlans ps = .ok s) ↔ Agree ps := by
  rcases ofPlans_cases ps with ⟨s, hof, hs⟩ | ⟨k, hof, hps⟩
  · exact iff_of_true ⟨s, hof⟩ hs.agree
  · refine iff_of_false ?_ hps
    rintro ⟨s, hok⟩
    rw [hof] at hok
    cases hok

/-- lists with the same plans make the same set, in whatever order and however often the plans stand in them -/
theorem ofPlans_congr (h : ∀ p, p ∈ ps ↔ p ∈ qs) : ofPlans ps = .ok s ↔ ofPlans qs = .ok s := by
  rw [ofPlans_eq_ok_iff, ofPlans_eq_ok_iff]
  exact forall_congr' fun p => iff_congr Iff.rfl (h p)

/-! ## Merging -/

/-- two sets have the same plan for every target that both have -/
def Agrees (a b : PlanSet) : Prop := ∀ p ∈ a, ∀ q ∈ b, p.target = q.target → p = q

/-- a set that has the plans of two others, and no more -/
def Unites (c a b : PlanSet) : Prop := ∀ p, p ∈ c ↔ p ∈ a ∨ p ∈ b

/-- merging ends at a conflict: it is about the smallest target for which the sets have different plans, with the hashes of
the two, and the first set has been joined by the plans of the second for smaller targets -/
structure Halts (a b c : PlanSet) (k : PlanConflict) : Prop where
  differ : ∃ q ∈ a, ∃ p ∈ b, q.target = p.target ∧ q ≠ p ∧ k = ⟨p.target, q.contentHash, p.contentHash⟩
  least : ∀ q ∈ a, ∀ p ∈ b, q.target = p.target → q ≠ p → (compare k.target p.target).isLE
  left : ∀ p, p ∈ c ↔ p ∈ a ∨ p ∈ b ∧ compare p.target k.target = .lt

theorem Unites.agrees (h : c.Unites a b) : a.Agrees b :=
  fun p hp q hq htarget => SortedBy.eq_of_key_eq ((h p).2 (.inl hp)) ((h q).2 (.inr hq)) htarget

theorem Halts.not_agrees (h : Halts a b c k) : ¬ a.Agrees b := by
  obtain ⟨q, hq, p, hp, htarget, hne, -⟩ := h.differ
  exact fun hagrees => hne (hagrees q hq p hp htarget)

/-- plans that come in the order of their targets: those before one are those for smaller targets -/
theorem mem_before_iff {before after : List Plan} {p : Plan} (h : b.toList = before ++ p :: after) {r : Plan} :
    r ∈ before ↔ r ∈ b ∧ compare r.target p.target = .lt := by
  have hascending := b.ascending
  rw [h, List.pairwise_append, List.pairwise_cons] at hascending
  obtain ⟨-, ⟨hafter, -⟩, hbefore⟩ := hascending
  have hmem : r ∈ b ↔ r ∈ before ∨ r = p ∨ r ∈ after := by
    rw [← List.mem_cons, ← List.mem_append, ← h]
    rfl
  rw [hmem]
  constructor
  · exact fun hr => ⟨.inl hr, hbefore r hr p List.mem_cons_self⟩
  · rintro ⟨hr | rfl | hr, hlt⟩
    · exact hr
    · simp at hlt
    · exact absurd (hafter r hr) (by simp [OrientedCmp.gt_of_lt hlt])

/-- a run over the plans of a set in the order of their targets ends at the smallest target with different plans -/
theorem Stops.halts (h : Stops a b.toList c k) : Halts a b c k := by
  generalize hps : b.toList = ps at h
  cases h with
  | @mk before after p q c hjoined hq htarget h =>
    have hbefore : ∀ {r}, r ∈ before ↔ r ∈ b ∧ compare r.target p.target = .lt := mem_before_iff hps
    have hp : p ∈ b := by
      show p ∈ b.toList
      simp [hps]
    have hqa : q ∈ a := by
      refine ((hjoined q).1 hq).resolve_right fun hq => ?_
      simpa [htarget] using (hbefore.1 hq).2
    refine ⟨⟨q, hqa, p, hp, htarget, h, rfl⟩, fun q' hq' p' hp' htarget' hne => ?_, fun r => ?_⟩
    · -- a smaller target would have been passed, and there the plans are the same
      rw [← OrientedCmp.isGE_iff_isLE, Ordering.isGE_iff_ne_lt]
      intro hlt
      have hp'c : p' ∈ c := (hjoined p').2 (.inr (hbefore.2 ⟨hp', hlt⟩))
      exact hne (SortedBy.eq_of_key_eq ((hjoined q').2 (.inl hq')) hp'c htarget')
    · rw [hjoined, hbefore]

/-- **The ends of merging.** The sets have a union; or merging halts at the smallest target on which they differ. -/
theorem merge_cases (a b : PlanSet) :
    (∃ c, a.merge b = (c, none) ∧ c.Unites a b) ∨ ∃ c k, a.merge b = (c, some k) ∧ Halts a b c k := by
  rcases addAll_cases a b.toList with ⟨c, hall, hc⟩ | ⟨c, k, hall, hstops⟩
  · exact .inl ⟨c, hall, hc⟩
  · exact .inr ⟨c, k, hall, hstops.halts⟩

theorem merge_eq_union_iff : a.merge b = (c, none) ↔ c.Unites a b := by
  rcases merge_cases a b with ⟨c', hmerge, hc'⟩ | ⟨c', k, hmerge, hhalts⟩
  · rw [hmerge, Prod.mk.injEq, and_iff_left rfl]
    constructor
    · rintro rfl
      exact hc'
    · exact fun hc => SortedBy.eq_of_mem_iff fun p => (hc' p).trans (hc p).symm
  · rw [hmerge]
    exact iff_of_false (by simp) fun hc => hhalts.not_agrees hc.agrees

theorem exists_merge_iff : (∃ c, a.merge b = (c, none)) ↔ a.Agrees b := by
  rcases merge_cases a b with ⟨c, hmerge, hc⟩ | ⟨c, k, hmerge, hhalts⟩
  · exact iff_of_true ⟨c, hmerge⟩ hc.agrees
  · refine iff_of_false ?_ hhalts.not_agrees
    rintro ⟨c', hok⟩
    rw [hmerge] at hok
    cases hok

/-- where merging halts and what it leaves is said in full -/
theorem Halts.unique {c' : PlanSet} {k' : PlanConflict} (h : Halts a b c k) (h' : Halts a b c' k') : c = c' ∧ k = k' := by
  obtain ⟨q, hq, p, hp, htarget, hne, rfl⟩ := h.differ
  obtain ⟨q', hq', p', hp', htarget', hne', rfl⟩ := h'.differ
  have hsame : p.target = p'.target :=
    LawfulEqOrd.eq_of_compare (OrientedCmp.isLE_antisymm (h.least q' hq' p' hp' htarget' hne') (h'.least q hq p hp htarget hne))
  obtain rfl : p = p' := SortedBy.eq_of_key_eq hp hp' hsame
  obtain rfl : q = q' := SortedBy.eq_of_key_eq hq hq' (htarget.trans htarget'.symm)
  exact ⟨SortedBy.eq_of_mem_iff fun r => (h.left r).trans (h'.left r).symm, rfl⟩

theorem merge_eq_conflict_iff : a.merge b = (c, some k) ↔ Halts a b c k := by
  rcases merge_cases a b with ⟨c', hmerge, hc'⟩ | ⟨c', k', hmerge, hhalts⟩
  · rw [hmerge]
    exact iff_of_false (by simp) fun h => h.not_agrees hc'.agrees
  · rw [hmerge, Prod.mk.injEq, Option.some.injEq]
    constructor
    · rintro ⟨rfl, rfl⟩
      exact hhalts
    · exact hhalts.unique

/-! ### The laws of a union -/

theorem merge_comm : a.merge b = (c, none) ↔ b.merge a = (c, none) := by
  rw [merge_eq_union_iff, merge_eq_union_iff]
  exact forall_congr' fun p => iff_congr Iff.rfl or_comm

theorem merge_self : a.merge a = (a, none) := merge_eq_union_iff.2 fun _ => (or_self_iff).symm

/-- three sets that are joined from the left are joined from the right, with the same result -/
theorem merge_from_right {d : PlanSet} (h : ∃ e, a.merge b = (e, none) ∧ e.merge c = (d, none)) :
    ∃ e, b.merge c = (e, none) ∧ a.merge e = (d, none) := by
  obtain ⟨e, he, hd⟩ := h
  rw [merge_eq_union_iff] at he hd
  have hall : ∀ p, p ∈ d ↔ p ∈ a ∨ p ∈ b ∨ p ∈ c := fun p => (hd p).trans ((or_congr_left (he p)).trans or_assoc)
  -- both of the others are in the whole, so they agree
  have hagrees : b.Agrees c := fun p hp q hq htarget =>
    SortedBy.eq_of_key_eq ((hall p).2 (.inr (.inl hp))) ((hall q).2 (.inr (.inr hq))) htarget
  obtain ⟨e', he'⟩ := exists_merge_iff.2 hagrees
  refine ⟨e', he', merge_eq_union_iff.2 fun p => (hall p).trans (or_congr_right ?_)⟩
  exact (merge_eq_union_iff.1 he' p).symm

theorem merge_assoc {d : PlanSet} : (∃ e, a.merge b = (e, none) ∧ e.merge c = (d, none)) ↔
    ∃ e, b.merge c = (e, none) ∧ a.merge e = (d, none) := by
  refine ⟨merge_from_right, fun ⟨e, he, hd⟩ => ?_⟩
  obtain ⟨e', he', hd'⟩ := merge_from_right ⟨e, merge_comm.1 he, merge_comm.1 hd⟩
  exact ⟨e', merge_comm.1 he', merge_comm.1 hd'⟩

/-- **Plan sets merge like a partial union.** A list of plans makes a set exactly if its plans for one target are the same,
and then the set of its members; so lists with the same plans, and permutations above all, make the same or all fail.

Merging succeeds exactly if the sets agree on their common targets, and gives their union: it is commutative, associative
and idempotent where it is defined. Where it is not, it reports the smallest target on which the sets differ and leaves the
first set with its own plans and those of the second for smaller targets. A plan that is refused leaves the set as it is. -/
theorem plan_sets_merge :
    (∀ ps, (∃ s, ofPlans ps = .ok s) ↔ Agree ps) ∧
      (∀ ps s, ofPlans ps = .ok s ↔ s.Holds ps) ∧
      (∀ ps qs, (∀ p, p ∈ ps ↔ p ∈ qs) → ∀ s, ofPlans ps = .ok s ↔ ofPlans qs = .ok s) ∧
      (∀ ps qs, ps.Perm qs → ((∃ s, ofPlans ps = .ok s) ↔ ∃ s, ofPlans qs = .ok s)) ∧
      (∀ a b : PlanSet, (∃ c, a.merge b = (c, none)) ↔ a.Agrees b) ∧
      (∀ a b c : PlanSet, a.merge b = (c, none) ↔ c.Unites a b) ∧
      (∀ a b c : PlanSet, a.merge b = (c, none) ↔ b.merge a = (c, none)) ∧
      (∀ a b c d : PlanSet, (∃ e, a.merge b = (e, none) ∧ e.merge c = (d, none)) ↔
        ∃ e, b.merge c = (e, none) ∧ a.merge e = (d, none)) ∧
      (∀ a : PlanSet, a.merge a = (a, none)) ∧
      (∀ (a b c : PlanSet) k, a.merge b = (c, some k) ↔ Halts a b c k) ∧
      (∀ (s : PlanSet) p k, s.add p = .error k ↔
        ∃ q ∈ s, q.target = p.target ∧ q ≠ p ∧ k = ⟨p.target, q.contentHash, p.contentHash⟩) ∧
      ∀ (s : PlanSet) p k rest, s.add p = .error k → s.addAll (p :: rest) = (s, some k) := by
  refine ⟨fun _ => exists_ofPlans_iff, fun _ _ => ofPlans_eq_ok_iff, fun _ _ h _ => ofPlans_congr h,
    fun _ _ h => exists_congr fun _ => ofPlans_congr fun _ => h.mem_iff, fun _ _ => exists_merge_iff,
    fun _ _ _ => merge_eq_union_iff, fun _ _ _ => merge_comm, fun _ _ _ _ => merge_assoc, fun _ => merge_self,
    fun _ _ _ _ => merge_eq_conflict_iff, fun _ _ _ => add_eq_error_iff, fun s p k rest h => ?_⟩
  simp only [addAll, h]

/-- a plan without mixins for a target with some complete interfaces -/
def barePlan (target : String) (interfaces : List TypeRef) : Plan :=
  { schema := planSchema
    target := ⟨target, []⟩
    mixins := []
    completeInterfaces := interfaces
    status := .clean
    contentHash := (Plan.hashedFields ⟨target, []⟩ [] interfaces).hash }

/-- plans for an order and an invoice -/
def ourPlans : PlanSet := .ofList [barePlan "Order" [], barePlan "Invoice" []]

/-- another plan for the order, next to plans for two more targets -/
def theirPlans : PlanSet := .ofList [barePlan "Refund" [], barePlan "Order" [⟨"Logging", []⟩], barePlan "Customer" []]

/-- plans for an order differ: merging ends there, after the plan for a customer and before the one for a refund -/
theorem differing_orders_halt : ∃ c k, ourPlans.merge theirPlans = (c, some k) ∧ k.target = ⟨"Order", []⟩ ∧
    ∀ p, p ∈ c ↔ p = barePlan "Order" [] ∨ p = barePlan "Invoice" [] ∨ p = barePlan "Customer" [] := by
  obtain ⟨-, -, -, -, hexists, -, -, -, -, hhalts, -⟩ := plan_sets_merge
  have hours : ∀ p, p ∈ ourPlans ↔ p = barePlan "Order" [] ∨ p = barePlan "Invoice" [] := by
    intro p
    rw [ourPlans, SortedBy.mem_ofList_iff (by simp [barePlan])]
    simp
  have htheirs : ∀ p, p ∈ theirPlans ↔
      p = barePlan "Refund" [] ∨ p = barePlan "Order" [⟨"Logging", []⟩] ∨ p = barePlan "Customer" [] := by
    intro p
    rw [theirPlans, SortedBy.mem_ofList_iff (by simp [barePlan])]
    simp
  have hdiffer : ¬ ourPlans.Agrees theirPlans := fun hagrees => by
    have horder := hagrees _ ((hours _).2 (.inl rfl)) _ ((htheirs _).2 (.inr (.inl rfl))) rfl
    simp [barePlan] at horder
  obtain ⟨c, hmerge⟩ : ∃ c, (ourPlans.merge theirPlans).1 = c := ⟨_, rfl⟩
  cases hconflict : (ourPlans.merge theirPlans).2 with
  | none => exact absurd ((hexists _ _).1 ⟨c, Prod.ext hmerge hconflict⟩) hdiffer
  | some k =>
    have hhalt := (hhalts _ _ _ _).1 (Prod.ext hmerge hconflict)
    have htarget : k.target = ⟨"Order", []⟩ := by
      obtain ⟨q, hq, p, hp, htarget, -, rfl⟩ := hhalt.differ
      rcases (hours q).1 hq with rfl | rfl <;> rcases (htheirs p).1 hp with rfl | rfl | rfl <;>
        simp_all [barePlan]
    refine ⟨c, k, Prod.ext hmerge hconflict, htarget, fun p => ?_⟩
    rw [hhalt.left, hours, htheirs, htarget]
    constructor
    · rintro ((rfl | rfl) | ⟨rfl | rfl | rfl, hlt⟩)
      · exact .inl rfl
      · exact .inr (.inl rfl)
      · exact absurd hlt (by decide)
      · exact absurd hlt (by decide)
      · exact .inr (.inr rfl)
    · rintro (rfl | rfl | rfl)
      · exact .inl (.inl rfl)
      · exact .inl (.inr rfl)
      · exact .inr ⟨.inr (.inr rfl), by decide⟩

end MixinPlanner.PlanSet
