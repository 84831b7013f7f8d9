/-
Conflicts are neither lost nor stale.

The conflicts of a context stand in a list of their own, beside the entries that they are about: suppressing takes both away,
merging adds to the one and changes the other. Of a mixin that is left, the list has what the declarations since its last
suppression say: a conflict for each one that is applied otherwise than the first of them (`disagreements`).
- `wiped_conflictsAbout`, `add_conflictsAbout`: what one fact does to the conflicts about a mixin;
- `conflicts_about`: what all facts leave of them;
- `reported_eq`, `reported_perm`, `reported_nodup`: which of them are reported, that they are all, and that none is twice;
- `conflicts_reported`: the validation reports these conflicts with the mixins that they are about, each once, and no others.
-/
import MixinPlanner.Proofs.Rejection

namespace MixinPlanner

/-- the conflicts that declarations of a mixin make: one for each that is applied otherwise than the first -/
def disagreements (m : TypeRef) : List (MixinFact × ℕ) → List MixinConflict
  | [] => []
  | d :: later => (later.filter fun d' => d'.1.application ≠ d.1.application).map fun d' =>
      ⟨m, d.1.application, d'.1.application, d.2, d'.2⟩

/-- one declaration more makes a conflict if it is applied otherwise than the first -/
theorem disagreements_snoc (m : TypeRef) (d : MixinFact × ℕ) (later : List (MixinFact × ℕ)) (d' : MixinFact × ℕ) :
    disagreements m (d :: later ++ [d']) = disagreements m (d :: later) ++
      if d.1.application = d'.1.application then [] else [⟨m, d.1.application, d'.1.application, d.2, d'.2⟩] := by
  simp only [disagreements, List.cons_append, List.filter_append, List.map_append]
  congr 1
  by_cases h : d.1.application = d'.1.application
  · simp [h]
  · simp [h, Ne.symm h]

/-! ## Declarations after the first -/

/-- from a later index on, the declarations are those that lie there -/
theorem declared_of_le (facts : List Fact) (m : TypeRef) {k k' : ℕ} (h : k ≤ k') :
    declared facts m k' = (declared facts m k).filter fun d => k' ≤ d.2 := by
  unfold declared
  rw [List.filter_filterMap]
  congr 1
  funext ⟨x, i⟩
  cases x with
  | completeInterface f => rfl
  | mixin f =>
    by_cases hm : f.mixin = m
    · by_cases hi : k' ≤ i
      · simp [declares?, hm, hi, h.trans hi, Option.filter]
      · by_cases hk : k ≤ i
        · simp [declares?, hm, hi, hk, Option.filter]
        · simp [declares?, hm, hi, hk]
    · simp [declares?, hm]

/-- after the first declaration come the others -/
theorem declared_after {facts : List Fact} {m : TypeRef} {k : ℕ} {d : MixinFact × ℕ} {later : List (MixinFact × ℕ)}
    (h : declared facts m k = d :: later) : declared facts m (d.2 + 1) = later := by
  have hk : k ≤ d.2 := ((mem_declared facts m k d).1 (h ▸ List.mem_cons_self)).2.2
  have hascending := declared_ascending facts m k
  rw [h, List.pairwise_cons] at hascending
  rw [declared_of_le facts m (Nat.le_succ_of_le hk), h, List.filter_cons_of_neg (by simp), List.filter_eq_self]
  intro d' hd'
  exact decide_eq_true (hascending.1 d' hd')

/-! ## Conflicts about one mixin -/

namespace Context

/-- the conflicts about a mixin -/
def conflictsAbout (c : Context) (m : TypeRef) : List MixinConflict := c.conflicts.filter fun k => k.mixin == m

theorem suppress_conflicts (byDefinition : Bool) (m s : TypeRef) {c : Context} (h : c.Kept) :
    (c.suppress byDefinition m s).conflicts = c.conflicts.filter fun k => !suppresses byDefinition s k.mixin := by
  have hremoved : ∀ k ∈ c.conflicts, k.mixin ∈ (c.mixins.map MixinEntry.mixin).filter (suppresses byDefinition s) ↔
      suppresses byDefinition s k.mixin = true := by
    intro k hk
    rw [List.mem_filter]
    exact and_iff_right (h k hk)
  simp only [suppress]
  split_ifs with hnone
  · symm
    apply List.filter_eq_self.2
    intro k hk
    have hnot := mt (hremoved k hk).2
    rw [List.isEmpty_iff.1 hnone] at hnot
    simpa using hnot List.not_mem_nil
  · apply List.filter_congr
    intro k hk
    rw [decide_not, Bool.not_eq_eq_eq_not, Bool.not_not, Bool.decide_congr (hremoved k hk)]
    simp

/-- the suppressions of a fact take away the conflicts about the mixins that they match -/
theorem wiped_conflicts (byDefinition : Bool) (f : MixinFact) {c : Context} (h : c.Kept) :
    (c.wiped byDefinition f).conflicts = c.conflicts.filter fun k => !(Fact.mixin f).wipes byDefinition k.mixin := by
  unfold wiped Fact.wipes
  simp only
  induction f.suppresses.toList generalizing c with
  | nil => simp
  | cons s l ih =>
    rw [List.foldl_cons, ih (suppress_kept byDefinition f.mixin s h), suppress_conflicts byDefinition f.mixin s h,
      List.filter_filter]
    apply List.filter_congr
    intro k _
    rw [List.any_cons, Bool.not_or, Bool.and_comm]

theorem wiped_conflictsAbout (byDefinition : Bool) (f : MixinFact) {c : Context} (h : c.Kept) (m : TypeRef) :
    (c.wiped byDefinition f).conflictsAbout m =
      if (Fact.mixin f).wipes byDefinition m then [] else c.conflictsAbout m := by
  unfold conflictsAbout
  rw [wiped_conflicts byDefinition f h, List.filter_filter]
  split_ifs with hw
  · apply List.filter_eq_nil_iff.2
    intro k _ hk
    rw [Bool.and_eq_true, beq_iff_eq] at hk
    rw [hk.1, hw] at hk
    exact absurd hk.2 (by decide)
  · apply List.filter_congr
    intro k _
    by_cases hk : k.mixin = m
    · simp [hk, hw]
    · simp [hk]

/-- a fact about a mixin that has an entry adds a conflict if it is applied otherwise -/
theorem add_conflictsAbout (c : Context) (f : MixinFact) (n : ℕ) (m : TypeRef) :
    (c.add f n).conflictsAbout m = c.conflictsAbout m ++
      if f.mixin = m then (c.find? m).elim [] fun e =>
        if e.fact.application = f.application then [] else
          [⟨m, e.fact.application, f.application, e.declarationIndex, n⟩]
      else [] := by
  unfold conflictsAbout add
  cases hfind : c.find? f.mixin with
  | none =>
    split_ifs with hm
    · simp [← hm, hfind]
    · simp
  | some e =>
    simp only
    by_cases hm : f.mixin = m
    · subst hm
      by_cases happ : e.fact.application = f.application
      · simp [hfind, happ]
      · simp [hfind, happ, List.filter_append]
    · by_cases happ : e.fact.application = f.application
      · simp [hm, happ]
      · simp [hm, happ, List.filter_append]

/-- **What the fold leaves of the conflicts about a mixin.** Those of its declarations since its last suppression. -/
theorem conflicts_about (settings : Settings) (target : TypeRef) (facts : List Fact) (m : TypeRef) :
    (build settings target facts).conflictsAbout m =
      disagreements m (declaredSince settings.suppressDefinitions facts m) := by
  induction facts using List.reverseRecOn with
  | nil => rfl
  | append_singleton facts x ih =>
    rw [build_snoc, declaredSince_snoc]
    cases x with
    | completeInterface f =>
      have hsame : ((build settings target facts).complete f).conflicts = (build settings target facts).conflicts := by
        unfold complete
        split_ifs
        · rfl
        · rfl
      rw [fold_completeInterface, conflictsAbout, hsame, ← conflictsAbout, ih]
      simp [Fact.wipes, declares?]
    | mixin f =>
      -- what is left of the mixin's declarations when the fact has suppressed, before it is added
      obtain ⟨since, hsince⟩ : ∃ since, since = if (Fact.mixin f).wipes settings.suppressDefinitions m then []
        else declaredSince settings.suppressDefinitions facts m := ⟨_, rfl⟩
      have hentry : ((build settings target facts).wiped settings.suppressDefinitions f).find? m = merged since := by
        rw [find?_wiped, find?_build, hsince]
        split_ifs
        · rfl
        · rfl
      have habout : ((build settings target facts).wiped settings.suppressDefinitions f).conflictsAbout m =
          disagreements m since := by
        rw [wiped_conflictsAbout _ f (build_kept settings target facts), ih, hsince]
        split_ifs
        · rfl
        · rfl
      rw [fold_mixin, add_conflictsAbout, habout, hentry, ← hsince]
      by_cases hm : f.mixin = m
      · have hdeclares : declares? m 0 (.mixin f, facts.length) = some (f, facts.length) := by simp [declares?, hm]
        rw [if_pos hm, hdeclares, Option.toList_some]
        cases since with
        | nil => rfl
        | cons d later =>
          rw [disagreements_snoc, merged, Option.elim_some, d.1.absorbAll_application later]
      · have hdeclares : declares? m 0 (.mixin f, facts.length) = none := by simp [declares?, hm]
        rw [if_neg hm, hdeclares, Option.toList_none, List.append_nil, List.append_nil]

/-! ## What the validation reports -/

variable (settings : Settings) (target : TypeRef) (facts : List Fact)

/-- the conflicts about an entry's mixin: one for each later declaration that is applied otherwise than the entry -/
theorem conflictsAbout_entry {e : MixinEntry} (he : e ∈ (build settings target facts).mixins) :
    (build settings target facts).conflictsAbout e.mixin =
      ((declared facts e.mixin (e.declarationIndex + 1)).filter fun d => d.1.application ≠ e.fact.application).map
        fun d => ⟨e.mixin, e.fact.application, d.1.application, e.declarationIndex, d.2⟩ := by
  obtain ⟨d, later, hsince, hfact, hindex⟩ := declared_of_mem_build settings target facts e he
  have hlater : declared facts e.mixin (d.2 + 1) = later := declared_after hsince
  have happ : e.fact.application = d.1.application := by
    rw [hfact, d.1.absorbAll_application later]
  rw [conflicts_about, hsince, hindex, hlater, happ, disagreements]

end Context

/-- a problem is that of a conflict -/
def Problem.isConflict : Problem → Bool
  | conflictingApplication .. => true
  | _ => false

namespace Context

/-- of the problems found without the graph, those of conflicts are the conflicts about each entry's mixin in turn -/
theorem conflicts_of_problems (catalog : Catalog) (c : Context) : (c.problems catalog).filter Problem.isConflict =
    c.mixins.flatMap fun e => (c.conflictsAbout e.mixin).map (MixinConflict.problem c.target) := by
  have hmixin : ∀ e, (c.mixinProblems catalog e).filter Problem.isConflict =
      (c.conflictsAbout e.mixin).map (MixinConflict.problem c.target) := by
    intro e
    have hconflicts : ((c.conflictsAbout e.mixin).map (MixinConflict.problem c.target)).filter Problem.isConflict =
        (c.conflictsAbout e.mixin).map (MixinConflict.problem c.target) := by
      apply List.filter_eq_self.2
      intro p hp
      obtain ⟨k, -, rfl⟩ := List.mem_map.1 hp
      rfl
    have harguments : (c.argumentProblem catalog e.mixin).toList.filter Problem.isConflict = [] := by
      apply List.filter_eq_nil_iff.2
      intro p hp
      obtain ⟨fault, -, rfl⟩ := Option.map_eq_some_iff.1 (Option.mem_toList.1 hp)
      exact Bool.false_ne_true
    rw [mixinProblems, ← conflictsAbout, List.filter_append, hconflicts, harguments, List.append_nil]
  have hinterfaces : (c.completeInterfaces.filterMap (c.interfaceProblem catalog)).filter Problem.isConflict = [] := by
    apply List.filter_eq_nil_iff.2
    intro p hp
    obtain ⟨i, -, hi⟩ := List.mem_filterMap.1 hp
    obtain ⟨reason, -, rfl⟩ := Option.map_eq_some_iff.1 hi
    exact Bool.false_ne_true
  rw [problems, List.filter_append, hinterfaces, List.append_nil, List.filter_flatMap]
  simp only [hmixin]

end Context

/-- a list is put together again from the parts that its members' keys divide it into -/
theorem perm_flatMap_filter {α κ : Type} [BEq κ] [LawfulBEq κ] (key : α → κ) (keys : List κ) (l : List α)
    (hn : keys.Nodup) (h : ∀ a ∈ l, key a ∈ keys) : (keys.flatMap fun k => l.filter fun a => key a == k).Perm l := by
  induction keys generalizing l with
  | nil =>
    obtain rfl : l = [] := List.eq_nil_iff_forall_not_mem.2 fun a ha => List.not_mem_nil (h a ha)
    rfl
  | cons k keys ih =>
    obtain ⟨hk, hn⟩ := List.nodup_cons.1 hn
    have hothers : ∀ k' ∈ keys, (l.filter fun a => !(key a == k)).filter (fun a => key a == k') =
        l.filter fun a => key a == k' := by
      intro k' hk'
      rw [List.filter_filter]
      apply List.filter_congr
      intro a _
      by_cases ha : key a = k'
      · have hne : key a ≠ k := by
          rintro rfl
          exact hk (ha ▸ hk')
        simp [ha, ha ▸ hne]
      · simp [ha]
    have hrest : (keys.flatMap fun k' => l.filter fun a => key a == k').Perm (l.filter fun a => !(key a == k)) := by
      refine List.Perm.trans (.of_eq ?_) (ih (l.filter fun a => !(key a == k)) hn ?_)
      · exact List.flatMap_congr fun k' hk' => (hothers k' hk').symm
      · intro a ha
        obtain ⟨ha, hne⟩ := List.mem_filter.1 ha
        rcases List.mem_cons.1 (h a ha) with hak | hak
        · rw [hak, beq_self_eq_true] at hne
          cases hne
        · exact hak
    rw [List.flatMap_cons]
    exact (hrest.append_left _).trans (List.filter_append_perm _ l)

/-- problems that are the conflicts of a context built from facts, as the facts have them -/
structure ReportsConflicts (byDefinition : Bool) (facts : List Fact) (c : Context) (reported : List Problem) : Prop where
  /-- an entry's index is that of the first declaration since the last suppression -/
  first : ∀ e ∈ c.mixins,
    IsLeast {i | lastSuppression byDefinition facts e.mixin ≤ i ∧ DeclaredAt facts e.mixin i} e.declarationIndex
  /-- and the entry is applied as that declaration says -/
  applied : ∀ e ∈ c.mixins, ∃ f, facts[e.declarationIndex]? = some (.mixin f) ∧ f.application = e.fact.application
  /-- for each entry in order there is one conflict for each later declaration that is applied otherwise, in order -/
  exact : reported = c.mixins.flatMap fun e =>
    ((declared facts e.mixin (e.declarationIndex + 1)).filter fun d => d.1.application ≠ e.fact.application).map fun d =>
      .conflictingApplication c.target e.mixin e.fact.application d.1.application e.declarationIndex d.2
  /-- no conflict is about a mixin that is not left, or about declarations before the last suppression -/
  current : ∀ p ∈ reported, ∃ m a b i j, p = .conflictingApplication c.target m a b i j ∧ m ∈ c.mixinTypes ∧
    lastSuppression byDefinition facts m ≤ i ∧ i < j ∧ DeclaredAt facts m i ∧ DeclaredAt facts m j
  /-- every conflict that was recorded is reported, and nothing else -/
  all : reported.Perm (c.conflicts.map (MixinConflict.problem c.target))
  once : reported.Nodup

namespace Context

section Reported

variable (settings : Settings) (target : TypeRef) (facts : List Fact) (catalog : Catalog)

/-- the conflicts that are reported: for each entry in order, one for each later declaration that is applied otherwise -/
theorem reported_eq : ((build settings target facts).problems catalog).filter Problem.isConflict =
    (build settings target facts).mixins.flatMap fun e =>
      ((declared facts e.mixin (e.declarationIndex + 1)).filter fun d => d.1.application ≠ e.fact.application).map
        fun d => .conflictingApplication (build settings target facts).target e.mixin e.fact.application
          d.1.application e.declarationIndex d.2 := by
  rw [conflicts_of_problems]
  apply List.flatMap_congr
  intro e he
  rw [conflictsAbout_entry settings target facts he, List.map_map]
  rfl

/-- each of them is about a mixin that is left, and two of its declarations since its last suppression -/
theorem reported_current : ∀ p ∈ ((build settings target facts).problems catalog).filter Problem.isConflict,
    ∃ m a b i j, p = .conflictingApplication (build settings target facts).target m a b i j ∧
      m ∈ (build settings target facts).mixinTypes ∧ lastSuppression settings.suppressDefinitions facts m ≤ i ∧ i < j ∧
      DeclaredAt facts m i ∧ DeclaredAt facts m j := by
  intro p hp
  rw [reported_eq, List.mem_flatMap] at hp
  obtain ⟨e, he, hp⟩ := hp
  obtain ⟨d, hd, rfl⟩ := List.mem_map.1 hp
  obtain ⟨hat, hmixin, hafter⟩ := (mem_declared ..).1 (List.mem_filter.1 hd).1
  obtain ⟨hsince, hfirst⟩ := (isLeast_declarationIndex settings target facts he).1
  exact ⟨_, _, _, _, _, rfl, List.mem_map_of_mem he, hsince, hafter, hfirst, d.1, hat, hmixin⟩

/-- they are the conflicts that were recorded, grouped by the mixins that are left -/
theorem reported_perm : (((build settings target facts).problems catalog).filter Problem.isConflict).Perm
    ((build settings target facts).conflicts.map (MixinConflict.problem (build settings target facts).target)) := by
  have hparts := perm_flatMap_filter MixinConflict.mixin _ (build settings target facts).conflicts
    (mixins_nodup settings target facts) (build_kept settings target facts)
  rw [List.flatMap_map] at hparts
  have hmap := hparts.map (MixinConflict.problem (build settings target facts).target)
  rw [List.map_flatMap] at hmap
  rw [conflicts_of_problems]
  exact hmap

/-- none is reported twice: those about one mixin differ in the second index, and those about two in the mixin -/
theorem reported_nodup : (((build settings target facts).problems catalog).filter Problem.isConflict).Nodup := by
  rw [reported_eq, List.nodup_flatMap]
  constructor
  · intro e _
    have hindices : (declared facts e.mixin (e.declarationIndex + 1)).Pairwise fun d d' => d.2 ≠ d'.2 :=
      (declared_ascending ..).imp fun h => h.ne
    apply List.pairwise_map.2
    exact (hindices.filter _).imp fun hne heq => hne (Problem.conflictingApplication.inj heq).2.2.2.2.2
  · have hmixins := List.pairwise_map.1 (mixins_nodup settings target facts)
    refine hmixins.imp ?_
    intro e e' hne p hp hp'
    obtain ⟨d, -, rfl⟩ := List.mem_map.1 hp
    obtain ⟨d', -, heq⟩ := List.mem_map.1 hp'
    exact hne (Problem.conflictingApplication.inj heq).2.1.symm

end Reported

variable (settings : Settings) (target : TypeRef) (facts : List Fact)

/-- **Conflicts are neither lost nor stale.** For each mixin that is left the validation reports one conflict for each
declaration after the first that is applied otherwise, in their order. It reports no others, and every conflict that was
recorded once. -/
theorem conflicts_reported (catalog : Catalog) : ReportsConflicts settings.suppressDefinitions facts
    (build settings target facts) (((build settings target facts).problems catalog).filter Problem.isConflict) where
  first _ he := isLeast_declarationIndex settings target facts he
  applied e he := by
    obtain ⟨f, hf, hkind, hvisibility, -⟩ := applied_of_mem settings target facts he
    exact ⟨f, hf, by rw [MixinFact.application, MixinFact.application, hkind, hvisibility]⟩
  exact := reported_eq settings target facts catalog
  current := reported_current settings target facts catalog
  all := reported_perm settings target facts catalog
  once := reported_nodup settings target facts catalog

/-- a mixin is wiped with its conflict and declared again, so that its conflict is with what is declared after that -/
example : let log (visibility : Visibility) : Fact := .mixin { mixin := ⟨"Log", []⟩, visibility }
    let quiet : Fact := .mixin { mixin := ⟨"Quiet", []⟩, suppresses := .ofList [⟨"Log", []⟩] }
    ((build {} ⟨"T", []⟩ [log .exposed, log .hidden, quiet, log .hidden, log .hidden, log .exposed]).problems .empty) =
      [.conflictingApplication ⟨"T", []⟩ ⟨"Log", []⟩ ⟨.extending, .hidden⟩ ⟨.extending, .exposed⟩ 3 5] := by decide

end Context

end MixinPlanner
