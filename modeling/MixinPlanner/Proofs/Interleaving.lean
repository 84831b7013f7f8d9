/-
A batch under any schedule: the tasks of its targets share one cache and take their steps in any order.

A task first looks whether the deadline has passed, and if not, for its plan in the cache. If there is none it resolves its
target and keeps the plan, unless another task was faster. Each look into the cache and each keeping of a plan is one step
(`act`); resolving touches nothing that is shared, so it goes with the keeping. A schedule says which task takes the next
step (`run`).

- `Acts`: all that a step can do; every fact about steps is read off it;
- `run_inv`: the cache stays sound, every task that has finished has the outcome of its target alone, and only plans of
  resolved targets are added;
- `run_mono`: a plan once kept is never replaced;
- `run_finished`: a task that has had two turns has finished;
- `run_turns`: one target after the other is one of the schedules.
`resolve_any_schedule` puts these together.
-/
import Mathlib.Tactic
import MixinPlanner.Batch
import MixinPlanner.Proofs.Caching

namespace MixinPlanner

/-! ## Tasks -/

/-- what the task of a target asks the cache -/
def Inquiry.ofTarget (settings : Settings) (catalog : Catalog) (entry : TypeRef × List Fact) : Inquiry :=
  ⟨settings, catalog, .build settings entry.1 entry.2⟩

theorem Inquiry.ofTarget_answer (settings : Settings) (catalog : Catalog) (entry : TypeRef × List Fact) :
    (ofTarget settings catalog entry).answer = resolve settings catalog entry.1 entry.2 := rfl

/-- how far a task has come -/
inductive Progress where
  | waiting
  /-- there was no plan in the cache -/
  | missed
  | finished (outcome : Outcome)

/-- how much of its way a task has behind it -/
def Progress.rank : Progress → ℕ
  | waiting => 0
  | missed => 1
  | finished _ => 2

/-- the task of a target with its facts -/
structure TargetTask where
  entry : TypeRef × List Fact
  progress : Progress

/-- the report of a task that has finished -/
def TargetTask.report? (t : TargetTask) : Option TargetReport :=
  match t.progress with
  | .finished outcome => some ⟨t.entry.1, outcome⟩
  | _ => none

theorem TargetTask.report?_eq_some {t : TargetTask} {r : TargetReport} :
    t.report? = some r ↔ t.entry.1 = r.target ∧ t.progress = .finished r.outcome := by
  obtain ⟨target, outcome⟩ := r
  unfold report?
  cases t.progress <;> simp

/-- a batch under way: the cache that the tasks share, and the tasks -/
structure Underway where
  cache : PlanCache
  tasks : List TargetTask

namespace Underway

/-- before the first step -/
def start (cache : PlanCache) (entries : List (TypeRef × List Fact)) : Underway :=
  ⟨cache, entries.map fun e => ⟨e, .waiting⟩⟩

/-- every task has finished, with these reports -/
def Finished (s : Underway) (reports : List TargetReport) : Prop := s.tasks.map TargetTask.report? = reports.map some

theorem Finished.exists_report {s : Underway} {reports : List TargetReport} (h : s.Finished reports) {t : TargetTask}
    (ht : t ∈ s.tasks) : ∃ r ∈ reports, t.report? = some r := by
  have hmem : t.report? ∈ reports.map some := h ▸ List.mem_map_of_mem ht
  obtain ⟨r, hr, hreport⟩ := List.mem_map.1 hmem
  exact ⟨r, hr, hreport.symm⟩

theorem Finished.exists_task {s : Underway} {reports : List TargetReport} (h : s.Finished reports) {r : TargetReport}
    (hr : r ∈ reports) : ∃ t ∈ s.tasks, t.report? = some r := by
  have hmem : some r ∈ s.tasks.map TargetTask.report? := h ▸ List.mem_map_of_mem hr
  exact List.mem_map.1 hmem

section Steps

variable (settings : Settings) (catalog : Catalog) (late : TypeRef → Bool)

/-- the next step of a task: what becomes of it, and of the cache -/
def act (cache : PlanCache) (t : TargetTask) : Progress × PlanCache :=
  match t.progress with
  | .waiting =>
    if late t.entry.1 then (.finished .deferred, cache)
    else
      match cache.plan? (Inquiry.ofTarget settings catalog t.entry).key with
      | some plan => (.finished (.resolved plan), cache)
      | none => (.missed, cache)
  | .missed =>
    match resolve settings catalog t.entry.1 t.entry.2 with
    | .error problems => (.finished (.rejected problems), cache)
    | .ok plan =>
      let (kept, cache) := cache.keep (Inquiry.ofTarget settings catalog t.entry).key plan
      (.finished (.resolved kept), cache)
  | .finished outcome => (.finished outcome, cache)

/-- the task at a position takes its next step -/
def step (s : Underway) (i : ℕ) : Underway :=
  match s.tasks[i]? with
  | none => s
  | some t =>
    let (progress, cache) := act settings catalog late s.cache t
    ⟨cache, s.tasks.set i { t with progress }⟩

/-- the tasks take their steps as a schedule has it -/
def run (s : Underway) (schedule : List ℕ) : Underway := schedule.foldl (step settings catalog late) s

theorem run_append (s : Underway) (schedule more : List ℕ) :
    s.run settings catalog late (schedule ++ more) =
      (s.run settings catalog late schedule).run settings catalog late more := List.foldl_append

/-! ## What a step can do -/

/-- the steps of a task: what becomes of it, and of the cache -/
inductive Acts : PlanCache → TargetTask → Progress → PlanCache → Prop
  | defer {cache : PlanCache} {e : TypeRef × List Fact} (hlate : late e.1 = true) :
      Acts cache ⟨e, .waiting⟩ (.finished .deferred) cache
  | hit {cache : PlanCache} {e : TypeRef × List Fact} {plan : Plan} (hlate : late e.1 = false)
      (h : cache.plan? (Inquiry.ofTarget settings catalog e).key = some plan) :
      Acts cache ⟨e, .waiting⟩ (.finished (.resolved plan)) cache
  | miss {cache : PlanCache} {e : TypeRef × List Fact} (hlate : late e.1 = false)
      (h : cache.plan? (Inquiry.ofTarget settings catalog e).key = none) :
      Acts cache ⟨e, .waiting⟩ .missed cache
  | reject {cache : PlanCache} {e : TypeRef × List Fact} {problems : List Problem}
      (h : resolve settings catalog e.1 e.2 = .error problems) :
      Acts cache ⟨e, .missed⟩ (.finished (.rejected problems)) cache
  | keep {cache : PlanCache} {e : TypeRef × List Fact} {plan : Plan}
      (h : resolve settings catalog e.1 e.2 = .ok plan) :
      Acts cache ⟨e, .missed⟩
        (.finished (.resolved ((cache.plan? (Inquiry.ofTarget settings catalog e).key).getD plan)))
        (cache.keep (Inquiry.ofTarget settings catalog e).key plan).2
  | rest {cache : PlanCache} {e : TypeRef × List Fact} {outcome : Outcome} :
      Acts cache ⟨e, .finished outcome⟩ (.finished outcome) cache

theorem acts_act (cache : PlanCache) (t : TargetTask) :
    Acts settings catalog late cache t (act settings catalog late cache t).1 (act settings catalog late cache t).2 := by
  obtain ⟨e, progress⟩ := t
  cases progress with
  | waiting =>
    cases hlate : late e.1 with
    | true => simpa only [act, hlate, if_true] using .defer hlate
    | false =>
      cases h : cache.plan? (Inquiry.ofTarget settings catalog e).key with
      | some plan => simpa only [act, hlate, h] using .hit hlate h
      | none => simpa only [act, hlate, h] using .miss hlate h
  | missed =>
    cases h : resolve settings catalog e.1 e.2 with
    | error problems => simpa only [act, h] using .reject h
    | ok plan => simpa only [act, h, PlanCache.keep_fst] using .keep h
  | finished outcome => exact .rest

/-- the outcome of a target by itself -/
def outcomeOf (e : TypeRef × List Fact) : Outcome :=
  if late e.1 then .deferred else .ofResult (resolve settings catalog e.1 e.2)

/-- a task has only come where its target leads it -/
def Right (t : TargetTask) : Prop :=
  match t.progress with
  | .waiting => True
  | .missed => late t.entry.1 = false
  | .finished outcome => outcome = outcomeOf settings catalog late t.entry

namespace Acts

variable {settings catalog late}

variable {cache cache' : PlanCache} {t : TargetTask} {p : Progress}

/-- a plan once kept is never replaced -/
theorem plan?_mono (h : Acts settings catalog late cache t p cache') {key : ContentHash} {plan : Plan}
    (hplan : cache.plan? key = some plan) : cache'.plan? key = some plan := by
  cases h with
  | keep => exact PlanCache.keep_mono _ _ hplan
  | _ => exact hplan

/-- the task of a rejected target adds nothing to the cache -/
theorem unchanged (h : Acts settings catalog late cache t p cache') {problems : List Problem}
    (hrejected : resolve settings catalog t.entry.1 t.entry.2 = .error problems) : cache' = cache := by
  cases h with
  | keep hresolved =>
    rw [hresolved] at hrejected
    cases hrejected
  | _ => rfl

theorem rank_lt (h : Acts settings catalog late cache t p cache') : min 2 (t.progress.rank + 1) ≤ p.rank := by
  cases h <;> simp [Progress.rank]

/-- what is new in the cache is the plan of a resolved target -/
theorem added (h : Acts settings catalog late cache t p cache') (hright : Right settings catalog late t)
    {key : ContentHash} {plan : Plan} (hplan : cache'.plan? key = some plan) :
    cache.plan? key = some plan ∨ late t.entry.1 = false ∧ (Inquiry.ofTarget settings catalog t.entry).key = key ∧
      resolve settings catalog t.entry.1 t.entry.2 = .ok plan := by
  cases h with
  | @keep e resolved hresolved =>
    rw [PlanCache.plan?_keep] at hplan
    split_ifs at hplan with hkey
    · cases hold : cache.plan? (Inquiry.ofTarget settings catalog e).key with
      | some kept =>
        rw [hold, Option.getD_some] at hplan
        exact .inl (hkey ▸ hplan ▸ hold)
      | none =>
        rw [hold, Option.getD_none, Option.some.injEq] at hplan
        exact .inr ⟨hright, hkey, hplan ▸ hresolved⟩
    · exact .inl hplan
  | _ => exact .inl hplan

section Sound

variable {asked : List Inquiry} (hread : ∀ q ∈ asked, q.WellRead)
  (hfree : CollisionFree (asked.flatMap Inquiry.hashed)) (hsound : cache.Sound asked)
  (hasked : Inquiry.ofTarget settings catalog t.entry ∈ asked)

include hsound hasked

theorem sound (h : Acts settings catalog late cache t p cache') : cache'.Sound asked := by
  cases h with
  | keep hresolved => exact hsound.keep hasked hresolved
  | _ => exact hsound

include hread hfree

/-- a plan found in the cache, or put there by a faster task, is the one that the target has by itself -/
theorem right (h : Acts settings catalog late cache t p cache') (hright : Right settings catalog late t) :
    Right settings catalog late { t with progress := p } := by
  have hhit : ∀ plan, cache.plan? (Inquiry.ofTarget settings catalog t.entry).key = some plan →
      resolve settings catalog t.entry.1 t.entry.2 = .ok plan := by
    -- the one place where it matters that keys do not collide
    intro plan hplan
    rw [← Inquiry.ofTarget_answer]
    exact PlanCache.Sound.answer_of_hit hread hfree hsound hasked hplan
  cases h with
  | defer hlate => simp only [Right, outcomeOf, hlate, if_true]
  | hit hlate hplan => simp [Right, outcomeOf, hlate, hhit _ hplan, Outcome.ofResult]
  | miss hlate => exact hlate
  | @reject e problems hrejected =>
    have hlate : late e.1 = false := hright
    simp [Right, outcomeOf, hlate, hrejected, Outcome.ofResult]
  | @keep e plan hresolved =>
    have hlate : late e.1 = false := hright
    have hkept : (cache.plan? (Inquiry.ofTarget settings catalog e).key).getD plan = plan := by
      cases hold : cache.plan? (Inquiry.ofTarget settings catalog e).key with
      | none => rfl
      | some kept =>
        have hsame := hhit kept hold
        rw [hresolved, Except.ok.injEq] at hsame
        exact hsame.symm
    simp [Right, outcomeOf, hlate, hresolved, hkept, Outcome.ofResult]
  | rest => exact hright

end Sound

end Acts

/-! ## Runs -/

/-- a step is that of one of the tasks, or there is no such task -/
theorem step_cases (s : Underway) (i : ℕ) : s.step settings catalog late i = s ∧ s.tasks[i]? = none ∨
    ∃ t p cache', s.tasks[i]? = some t ∧ Acts settings catalog late s.cache t p cache' ∧
      s.step settings catalog late i = ⟨cache', s.tasks.set i { t with progress := p }⟩ := by
  cases h : s.tasks[i]? with
  | none => exact .inl ⟨by simp only [step, h], rfl⟩
  | some t => exact .inr ⟨t, _, _, rfl, acts_act settings catalog late s.cache t, by simp only [step, h]⟩

theorem entries_step (s : Underway) (i : ℕ) :
    (s.step settings catalog late i).tasks.map TargetTask.entry = s.tasks.map TargetTask.entry := by
  rcases step_cases settings catalog late s i with ⟨hstep, -⟩ | ⟨t, p, cache', ht, -, hstep⟩
  · rw [hstep]
  · have hsame : (s.tasks.map TargetTask.entry)[i]? = some t.entry := by rw [List.getElem?_map, ht, Option.map_some]
    obtain ⟨hi, hget⟩ := List.getElem?_eq_some_iff.1 hsame
    rw [hstep, List.map_set, ← hget]
    exact List.set_getElem_self hi

/-- the tasks of a batch stay those of its targets -/
theorem entries_run (s : Underway) (schedule : List ℕ) :
    (s.run settings catalog late schedule).tasks.map TargetTask.entry = s.tasks.map TargetTask.entry := by
  induction schedule generalizing s with
  | nil => rfl
  | cons i schedule ih => exact (ih _).trans (entries_step settings catalog late s i)

theorem step_mono (s : Underway) (i : ℕ) {key : ContentHash} {plan : Plan} (h : s.cache.plan? key = some plan) :
    (s.step settings catalog late i).cache.plan? key = some plan := by
  rcases step_cases settings catalog late s i with ⟨hstep, -⟩ | ⟨t, p, cache', -, hacts, hstep⟩
  · rwa [hstep]
  · rw [hstep]
    exact hacts.plan?_mono h

/-- **No plan in the cache is ever replaced.** -/
theorem run_mono (s : Underway) (schedule : List ℕ) {key : ContentHash} {plan : Plan}
    (h : s.cache.plan? key = some plan) : (s.run settings catalog late schedule).cache.plan? key = some plan := by
  induction schedule generalizing s with
  | nil => exact h
  | cons i schedule ih => exact ih (s.step settings catalog late i) (step_mono settings catalog late s i h)

/-- the steps of a rejected target leave the cache alone -/
theorem step_cache_of_rejected {s : Underway} {i : ℕ} {t : TargetTask} (ht : s.tasks[i]? = some t)
    {problems : List Problem} (h : resolve settings catalog t.entry.1 t.entry.2 = .error problems) :
    (s.step settings catalog late i).cache = s.cache := by
  rcases step_cases settings catalog late s i with ⟨hstep, -⟩ | ⟨t', p, cache', ht', hacts, hstep⟩
  · rw [hstep]
  · obtain rfl : t = t' := Option.some.inj (ht.symm.trans ht')
    rw [hstep]
    exact hacts.unchanged h

/-- what every run of a batch keeps: its targets, a sound cache, tasks that are right, and nothing in the cache but what was
there before and the plans of resolved targets -/
structure Inv (asked : List Inquiry) (before : PlanCache) (entries : List (TypeRef × List Fact)) (s : Underway) :
    Prop where
  tasks : s.tasks.map TargetTask.entry = entries
  sound : s.cache.Sound asked
  right : ∀ t ∈ s.tasks, Right settings catalog late t
  added : ∀ key plan, s.cache.plan? key = some plan → before.plan? key = some plan ∨
    ∃ e ∈ entries, late e.1 = false ∧ (Inquiry.ofTarget settings catalog e).key = key ∧
      resolve settings catalog e.1 e.2 = .ok plan

theorem start_inv {asked : List Inquiry} {before : PlanCache} (entries : List (TypeRef × List Fact))
    (hsound : before.Sound asked) : Inv settings catalog late asked before entries (start before entries) where
  tasks := by simp [start, Function.comp_def]
  sound := hsound
  right t ht := by
    obtain ⟨e, -, rfl⟩ := List.mem_map.1 ht
    trivial
  added _ _ h := .inl h

section Kept

variable {settings catalog late}

variable {asked : List Inquiry} (hread : ∀ q ∈ asked, q.WellRead)
  (hfree : CollisionFree (asked.flatMap Inquiry.hashed)) {before : PlanCache} {entries : List (TypeRef × List Fact)}
  (hasked : ∀ e ∈ entries, Inquiry.ofTarget settings catalog e ∈ asked)

include hread hfree hasked

theorem step_inv {s : Underway} (hs : Inv settings catalog late asked before entries s) (i : ℕ) :
    Inv settings catalog late asked before entries (s.step settings catalog late i) := by
  rcases step_cases settings catalog late s i with ⟨hstep, -⟩ | ⟨t, p, cache', ht, hacts, hstep⟩
  · rwa [hstep]
  have hmem : t ∈ s.tasks := List.mem_of_getElem? ht
  have hentry : t.entry ∈ entries := hs.tasks ▸ List.mem_map_of_mem hmem
  rw [hstep]
  refine ⟨?_, hacts.sound hs.sound (hasked _ hentry), fun t' ht' => ?_, fun key plan hplan => ?_⟩
  · rw [← hstep, entries_step, hs.tasks]
  · rcases List.mem_or_eq_of_mem_set ht' with ht' | rfl
    · exact hs.right t' ht'
    · exact hacts.right hread hfree hs.sound (hasked _ hentry) (hs.right t hmem)
  · rcases hacts.added (hs.right t hmem) hplan with hold | hnew
    · exact hs.added key plan hold
    · exact .inr ⟨t.entry, hentry, hnew⟩

theorem run_inv {s : Underway} (hs : Inv settings catalog late asked before entries s) (schedule : List ℕ) :
    Inv settings catalog late asked before entries (s.run settings catalog late schedule) := by
  induction schedule generalizing s with
  | nil => exact hs
  | cons i schedule ih => exact ih (step_inv hread hfree hasked hs i)

end Kept

/-- **When all tasks have finished, each target has its own outcome.** -/
theorem Inv.reports_eq {settings : Settings} {catalog : Catalog} {late : TypeRef → Bool} {asked : List Inquiry}
    {before : PlanCache} {entries : List (TypeRef × List Fact)} {s : Underway}
    (hs : Inv settings catalog late asked before entries s) {reports : List TargetReport}
    (hfinished : s.Finished reports) :
    reports = entries.map fun e => ⟨e.1, outcomeOf settings catalog late e⟩ := by
  have hreport : ∀ t ∈ s.tasks, t.report? = some ⟨t.entry.1, outcomeOf settings catalog late t.entry⟩ := by
    intro t ht
    obtain ⟨r, -, hr⟩ := hfinished.exists_report ht
    obtain ⟨htarget, hprogress⟩ := TargetTask.report?_eq_some.1 hr
    have hright := hs.right t ht
    unfold Right at hright
    rw [hprogress] at hright
    rw [TargetTask.report?_eq_some]
    exact ⟨rfl, hprogress.trans (congrArg Progress.finished hright)⟩
  have hsome : reports.map some =
      (entries.map fun e => (⟨e.1, outcomeOf settings catalog late e⟩ : TargetReport)).map some := by
    rw [← hfinished, ← hs.tasks, List.map_map, List.map_map]
    exact List.map_congr_left hreport
  exact List.map_injective_iff.2 (Option.some_injective _) hsome

/-! ## Tasks finish -/

theorem rank_step {s : Underway} {j : ℕ} {t : TargetTask} (ht : s.tasks[j]? = some t) (i : ℕ) :
    ∃ t', (s.step settings catalog late i).tasks[j]? = some t' ∧
      min 2 (t.progress.rank + if i = j then 1 else 0) ≤ t'.progress.rank := by
  rcases step_cases settings catalog late s i with ⟨hstep, hnone⟩ | ⟨u, p, cache', hu, hacts, hstep⟩
  · rw [hstep]
    refine ⟨t, ht, ?_⟩
    have hij : i ≠ j := by
      rintro rfl
      rw [hnone] at ht
      cases ht
    simp [hij]
  · rw [hstep]
    by_cases hij : i = j
    · subst hij
      obtain rfl : t = u := Option.some.inj (ht.symm.trans hu)
      refine ⟨{ t with progress := p }, ?_, by simpa using hacts.rank_lt⟩
      rw [List.getElem?_set]
      simp [(List.getElem?_eq_some_iff.1 ht).1]
    · exact ⟨t, by rw [List.getElem?_set]; simp [hij, ht], by simp [hij]⟩

theorem rank_run {s : Underway} {j : ℕ} {t : TargetTask} (ht : s.tasks[j]? = some t) (schedule : List ℕ) :
    ∃ t', (s.run settings catalog late schedule).tasks[j]? = some t' ∧
      min 2 (t.progress.rank + schedule.count j) ≤ t'.progress.rank := by
  induction schedule generalizing s t with
  | nil => exact ⟨t, ht, by simp⟩
  | cons i schedule ih =>
    obtain ⟨u, hu, hstep⟩ := rank_step settings catalog late ht i
    obtain ⟨t', ht', hrun⟩ := ih hu
    refine ⟨t', ht', ?_⟩
    rw [List.count_cons]
    by_cases hij : i = j
    · simp only [hij, if_true, beq_self_eq_true] at hstep ⊢
      omega
    · simp only [hij, if_false, beq_eq_false_iff_ne.2 hij, Bool.false_eq_true] at hstep ⊢
      omega

theorem map_eq_some_of_isSome {α β : Type} {f : α → Option β} {l : List α} (h : ∀ a ∈ l, ∃ b, f a = some b) :
    ∃ bs : List β, l.map f = bs.map some := by
  induction l with
  | nil => exact ⟨[], rfl⟩
  | cons a l ih =>
    obtain ⟨⟨b, hb⟩, hl⟩ := List.forall_mem_cons.1 h
    obtain ⟨bs, hbs⟩ := ih hl
    exact ⟨b :: bs, by rw [List.map_cons, List.map_cons, hb, hbs]⟩

/-- **A batch finishes** once each of its tasks has had two turns. -/
theorem run_finished (cache : PlanCache) (entries : List (TypeRef × List Fact)) {schedule : List ℕ}
    (hturns : ∀ i < entries.length, 2 ≤ schedule.count i) :
    ∃ reports, ((start cache entries).run settings catalog late schedule).Finished reports := by
  refine map_eq_some_of_isSome fun t ht => ?_
  obtain ⟨j, hj⟩ := List.getElem?_of_mem ht
  have hentries : ((start cache entries).run settings catalog late schedule).tasks.map TargetTask.entry = entries := by
    rw [entries_run]
    simp [start, Function.comp_def]
  have hlt : j < entries.length := by
    rw [← hentries, List.length_map]
    exact (List.getElem?_eq_some_iff.1 hj).1
  have hstart : (start cache entries).tasks[j]? = some ⟨entries[j], .waiting⟩ := by
    simp [start, List.getElem?_eq_getElem hlt]
  obtain ⟨t', ht', hrank⟩ := rank_run settings catalog late hstart schedule
  obtain rfl : t = t' := Option.some.inj (hj.symm.trans ht')
  have hcount := hturns j hlt
  unfold TargetTask.report?
  cases hprogress : t.progress with
  | finished outcome => exact ⟨_, rfl⟩
  | waiting => rw [hprogress] at hrank; simp only [Progress.rank] at hrank; omega
  | missed => rw [hprogress] at hrank; simp only [Progress.rank] at hrank; omega

/-! ## One target after the other -/

/-- two turns for each of some tasks in a row -/
def turns (first count : ℕ) : List ℕ := (List.range' first count).flatMap fun i => [i, i]

/-- two steps of a task that nothing comes between resolve its target through the cache -/
theorem act_twice (cache : PlanCache) (e : TypeRef × List Fact) :
    act settings catalog late (act settings catalog late cache ⟨e, .waiting⟩).2
        ⟨e, (act settings catalog late cache ⟨e, .waiting⟩).1⟩ =
      (.finished (Configuration.resolveTarget settings catalog late cache e).1.outcome,
        (Configuration.resolveTarget settings catalog late cache e).2) := by
  have hask : cache.resolve settings catalog (.build settings e.1 e.2) =
      cache.ask (Inquiry.ofTarget settings catalog e) := rfl
  cases hlate : late e.1 with
  | true => simp [act, Configuration.resolveTarget, hlate]
  | false =>
    cases hcached : cache.plan? (Inquiry.ofTarget settings catalog e).key with
    | some plan =>
      simp [act, Configuration.resolveTarget, hlate, hask, hcached, PlanCache.ask_of_hit hcached, Outcome.ofResult]
    | none =>
      cases hanswer : resolve settings catalog e.1 e.2 with
      | error problems =>
        simp [act, Configuration.resolveTarget, hlate, hask, hcached, hanswer,
          PlanCache.ask_of_rejected hcached hanswer, Outcome.ofResult]
      | ok plan =>
        simp [act, Configuration.resolveTarget, hlate, hask, hcached, hanswer,
          PlanCache.ask_of_resolved hcached hanswer, PlanCache.keep_fst, Outcome.ofResult]

theorem step_at (cache : PlanCache) (done : List TargetTask) (t : TargetTask) (rest : List TargetTask) :
    step settings catalog late ⟨cache, done ++ t :: rest⟩ done.length =
      ⟨(act settings catalog late cache t).2,
        done ++ { t with progress := (act settings catalog late cache t).1 } :: rest⟩ := by
  simp [step]

theorem two_turns (cache : PlanCache) (done : List TargetTask) (e : TypeRef × List Fact) (rest : List TargetTask) :
    run settings catalog late ⟨cache, done ++ ⟨e, .waiting⟩ :: rest⟩ [done.length, done.length] =
      ⟨(Configuration.resolveTarget settings catalog late cache e).2,
        done ++ ⟨e, .finished (Configuration.resolveTarget settings catalog late cache e).1.outcome⟩ :: rest⟩ := by
  rw [run, List.foldl_cons, List.foldl_cons, List.foldl_nil, step_at, step_at, act_twice]

theorem resolveTarget_target (cache : PlanCache) (e : TypeRef × List Fact) :
    (Configuration.resolveTarget settings catalog late cache e).1.target = e.1 := by
  unfold Configuration.resolveTarget
  split_ifs <;> rfl

/-- **Resolving one target after the other is one of the schedules.** -/
theorem run_turns (done : List TargetTask) (cache : PlanCache) (entries : List (TypeRef × List Fact)) :
    ∃ tasks, run settings catalog late ⟨cache, done ++ entries.map fun e => ⟨e, .waiting⟩⟩
        (turns done.length entries.length) =
      ⟨(Configuration.resolveTargets settings catalog late cache entries).2, done ++ tasks⟩ ∧
        tasks.map TargetTask.report? =
          (Configuration.resolveTargets settings catalog late cache entries).1.map some := by
  -- over the targets that are left; the tasks of the others stand in front of them and are not touched again
  induction entries generalizing done cache with
  | nil => exact ⟨[], rfl, rfl⟩
  | cons e rest ih =>
    let r := Configuration.resolveTarget settings catalog late cache e
    obtain ⟨tasks, hrun, htasks⟩ := ih (done ++ [⟨e, .finished r.1.outcome⟩]) r.2
    have hturns : turns done.length (e :: rest).length =
        [done.length, done.length] ++ turns (done.length + 1) rest.length := by
      simp [turns, List.range'_succ]
    have hreport : TargetTask.report? ⟨e, .finished r.1.outcome⟩ = some r.1 := by
      simp only [TargetTask.report?, r, ← resolveTarget_target settings catalog late cache e]
    rw [List.length_append, List.length_singleton, List.append_assoc, List.append_assoc] at hrun
    refine ⟨⟨e, .finished r.1.outcome⟩ :: tasks, ?_, ?_⟩
    · rw [hturns, run_append, List.map_cons, two_turns]
      exact hrun
    · rw [List.map_cons, htasks, hreport]
      rfl

end Steps

end Underway

namespace Configuration

/-! ## A configuration under any schedule -/

/-- what the tasks of a batch ask -/
def inquiries (settings : Settings) (c : Configuration) : List Inquiry :=
  c.targets.toList.map (Inquiry.ofTarget settings c.catalog)

/-- a batch after some steps of its tasks -/
def underway (settings : Settings) (late : TypeRef → Bool) (c : Configuration) (cache : PlanCache)
    (schedule : List ℕ) : Underway :=
  (Underway.start cache c.targets.toList).run settings c.catalog late schedule

/-- the reports that the targets have by themselves -/
def ownReports (settings : Settings) (late : TypeRef → Bool) (c : Configuration) : List TargetReport :=
  c.targets.toList.map fun e => ⟨e.1, Underway.outcomeOf settings c.catalog late e⟩

/-- what holds of a batch, whatever the schedule is -/
structure AnySchedule (settings : Settings) (late : TypeRef → Bool) (c : Configuration) (cache : PlanCache) : Prop where
  /-- it finishes, once each task has had two turns -/
  finishes : ∀ schedule, (∀ i < c.targets.size, 2 ≤ schedule.count i) →
    ∃ reports, (c.underway settings late cache schedule).Finished reports
  /-- its reports are those that the targets have by themselves -/
  own : ∀ schedule reports, (c.underway settings late cache schedule).Finished reports →
    reports = c.ownReports settings late
  /-- so are those of one target after the other -/
  sequential : (c.resolveWhen late settings cache).1 = .ofTargets (c.ownReports settings late)
  /-- a plan in the cache is never replaced -/
  kept : ∀ schedule more key plan, (c.underway settings late cache schedule).cache.plan? key = some plan →
    (c.underway settings late cache (schedule ++ more)).cache.plan? key = some plan
  /-- no step of a rejected target changes the cache -/
  rejected : ∀ schedule i e problems, c.targets.toList[i]? = some e →
    MixinPlanner.resolve settings c.catalog e.1 e.2 = .error problems →
      (c.underway settings late cache (schedule ++ [i])).cache = (c.underway settings late cache schedule).cache
  /-- what is new in the cache is the plan of a resolved target -/
  added : ∀ schedule key plan, (c.underway settings late cache schedule).cache.plan? key = some plan →
    cache.plan? key = some plan ∨ ∃ e ∈ c.targets, late e.1 = false ∧
      (Inquiry.ofTarget settings c.catalog e).key = key ∧ MixinPlanner.resolve settings c.catalog e.1 e.2 = .ok plan

/-- one target after the other is a schedule under which a batch finishes -/
theorem finished_turns (settings : Settings) (late : TypeRef → Bool) (c : Configuration) (cache : PlanCache) :
    (c.underway settings late cache (Underway.turns 0 c.targets.toList.length)).Finished
      (resolveTargets settings c.catalog late cache c.targets.toList).1 := by
  obtain ⟨tasks, hrun, htasks⟩ := Underway.run_turns settings c.catalog late [] cache c.targets.toList
  unfold underway Underway.Finished
  rw [← htasks]
  exact congrArg (fun s : Underway => s.tasks.map TargetTask.report?) hrun

theorem anySchedule {settings : Settings} (late : TypeRef → Bool) {c : Configuration} {cache : PlanCache}
    {asked : List Inquiry} (hread : ∀ q ∈ asked, q.WellRead) (hfree : CollisionFree (asked.flatMap Inquiry.hashed))
    (hsound : cache.Sound asked) (hasked : ∀ q ∈ c.inquiries settings, q ∈ asked) :
    c.AnySchedule settings late cache := by
  have hentries : ∀ e ∈ c.targets.toList, Inquiry.ofTarget settings c.catalog e ∈ asked :=
    fun e he => hasked _ (List.mem_map_of_mem he)
  have hinv (schedule : List ℕ) : Underway.Inv settings c.catalog late asked cache c.targets.toList
      (c.underway settings late cache schedule) :=
    Underway.run_inv hread hfree hentries (Underway.start_inv settings c.catalog late _ hsound) schedule
  refine ⟨fun schedule => Underway.run_finished settings c.catalog late cache c.targets.toList,
    fun schedule reports hfinished => (hinv schedule).reports_eq hfinished, ?_, ?_, ?_,
    fun schedule => (hinv schedule).added⟩
  · have hown := (hinv _).reports_eq (finished_turns settings late c cache)
    unfold resolveWhen
    rw [ownReports, ← hown]
  · intro schedule more key plan h
    unfold underway
    rw [Underway.run_append]
    exact Underway.run_mono settings c.catalog late _ more h
  · intro schedule i e problems he hrejected
    have hentry : (c.underway settings late cache schedule).tasks[i]?.map TargetTask.entry = some e := by
      rw [← List.getElem?_map, (hinv schedule).tasks, he]
    obtain ⟨t, ht, rfl⟩ := Option.map_eq_some_iff.1 hentry
    unfold underway
    rw [Underway.run_append]
    exact Underway.step_cache_of_rejected settings c.catalog late ht hrejected

theorem targets_restrict {c : Configuration} {e : TypeRef × List Fact} (he : e ∈ c.targets) :
    (c.restrict e.1).targets.toList = [e] := by
  have hfind : c.targets.find? e.1 = some e := c.targets.find?_of_mem he
  simp only [restrict, hfind, Option.toList_some]
  rfl

theorem ownReports_restrict (settings : Settings) (late : TypeRef → Bool) {c : Configuration}
    {e : TypeRef × List Fact} (he : e ∈ c.targets) : (c.restrict e.1).ownReports settings late =
      [⟨e.1, Underway.outcomeOf settings c.catalog late e⟩] := by
  rw [ownReports, targets_restrict he]
  rfl

/-- **A batch has the same outcome under any schedule.** Whatever earlier uses left in the cache, and in whatever order the
tasks take their steps, each target is reported once, in its place, with the outcome that it has by itself. The batch of one
of the targets alone says the same of it. -/
theorem resolve_any_schedule {settings : Settings} {c : Configuration} (hcatalog : Legible c.catalog.references)
    (htargets : ∀ e ∈ c.targets, Legible (e.1 :: e.2.flatMap Fact.references)) {earlier : List Inquiry}
    {cache : PlanCache} (hearlier : ∀ q ∈ earlier, q.WellRead) (hfilled : PlanCache.Filled earlier cache)
    (hfree : CollisionFree ((earlier ++ c.inquiries settings).flatMap Inquiry.hashed)) (late : TypeRef → Bool) :
    c.AnySchedule settings late cache ∧
      (c.ownReports settings late).map TargetReport.target = c.targets.toList.map Prod.fst ∧
      (c.ownReports settings late).Pairwise (fun r r' => compare r.target r'.target = .lt) ∧
      ∀ e ∈ c.targets, (c.restrict e.1).AnySchedule settings late cache ∧
        (c.restrict e.1).ownReports settings late = [⟨e.1, Underway.outcomeOf settings c.catalog late e⟩] := by
  have hread : ∀ q ∈ earlier ++ c.inquiries settings, q.WellRead := by
    intro q hq
    rcases List.mem_append.1 hq with hq | hq
    · exact hearlier q hq
    · obtain ⟨e, he, rfl⟩ := List.mem_map.1 hq
      exact ⟨⟨settings, e.1, e.2, htargets e he, rfl⟩, hcatalog⟩
  have hsound : cache.Sound (earlier ++ c.inquiries settings) := hfilled.sound.mono fun _ => List.mem_append_left _
  refine ⟨anySchedule late hread hfree hsound fun _ => List.mem_append_right _, ?_, ?_, fun e he => ⟨?_, ?_⟩⟩
  · simp [ownReports, Function.comp_def]
  · exact List.pairwise_map.2 c.targets.ascending
  · refine anySchedule late hread hfree hsound fun q hq => List.mem_append_right _ ?_
    rw [inquiries, targets_restrict he] at hq
    rw [List.mem_singleton.1 hq]
    exact List.mem_map_of_mem he
  · exact ownReports_restrict settings late he

/-- an order and a refund, of which the order was resolved before -/
def sales : Configuration where
  targets := .ofList [(⟨"Order", []⟩, PlanCache.orderFacts), (⟨"Refund", []⟩, PlanCache.refundFacts)]

theorem sales_inquiries : sales.inquiries {} = [PlanCache.loggedOrder, PlanCache.auditedRefund] := rfl

/-- the refund begins and ends first, and the order finds its plan in between -/
theorem sales_any_schedule : ∃ plan problems cache, PlanCache.Filled [PlanCache.loggedOrder] cache ∧
    (∀ q ∈ [PlanCache.loggedOrder], q.WellRead) ∧ Legible sales.catalog.references ∧
      (∀ e ∈ sales.targets, Legible (e.1 :: e.2.flatMap Fact.references)) ∧
        CollisionFree (([PlanCache.loggedOrder] ++ sales.inquiries {}).flatMap Inquiry.hashed) ∧
          (sales.underway {} (fun _ => false) cache [1, 0, 1, 0]).Finished
            [⟨⟨"Order", []⟩, .resolved plan⟩, ⟨⟨"Refund", []⟩, .rejected problems⟩] := by
  obtain ⟨plan, hplan⟩ : ∃ plan, PlanCache.loggedOrder.answer = .ok plan := ⟨_, rfl⟩
  obtain ⟨problems, hproblems⟩ : ∃ problems, PlanCache.auditedRefund.answer = .error problems := ⟨_, rfl⟩
  have hearlier : ∀ q ∈ [PlanCache.loggedOrder], q.WellRead := by
    simpa using PlanCache.loggedOrder_wellRead
  have hfilled : PlanCache.Filled [PlanCache.loggedOrder] (PlanCache.ask .empty PlanCache.loggedOrder).2 :=
    PlanCache.Filled.empty.ask _
  have hcatalog : Legible sales.catalog.references := List.forall_mem_nil _
  have htargets : ∀ e ∈ sales.targets, Legible (e.1 :: e.2.flatMap Fact.references) := by
    have hlist : sales.targets.toList = [(⟨"Order", []⟩, PlanCache.orderFacts),
        (⟨"Refund", []⟩, PlanCache.refundFacts)] := rfl
    intro e he
    have hmem : e ∈ sales.targets.toList := he
    rw [hlist, List.mem_cons, List.mem_singleton] at hmem
    rcases hmem with rfl | rfl
    · exact PlanCache.orderFacts_legible
    · exact PlanCache.refundFacts_legible
  have hfree : CollisionFree (([PlanCache.loggedOrder] ++ sales.inquiries {}).flatMap Inquiry.hashed) := by
    refine PlanCache.sampleStrings_collisionFree.mono (List.forall_mem_flatMap.2 ?_)
    simp only [sales_inquiries, List.cons_append, List.nil_append, List.forall_mem_cons]
    exact ⟨PlanCache.loggedOrder_hashed, PlanCache.loggedOrder_hashed, PlanCache.auditedRefund_hashed,
      List.forall_mem_nil _⟩
  obtain ⟨hany, -⟩ := resolve_any_schedule hcatalog htargets hearlier hfilled hfree fun _ => false
  obtain ⟨reports, hreports⟩ := hany.finishes [1, 0, 1, 0] (by decide)
  have hown : reports = [⟨⟨"Order", []⟩, .ofResult PlanCache.loggedOrder.answer⟩,
      ⟨⟨"Refund", []⟩, .ofResult PlanCache.auditedRefund.answer⟩] := hany.own _ _ hreports
  rw [hplan, hproblems] at hown
  exact ⟨plan, problems, _, hfilled, hearlier, hcatalog, htargets, hfree, hown ▸ hreports⟩

end Configuration

end MixinPlanner
