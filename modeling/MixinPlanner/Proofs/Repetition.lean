/-
A mixin fact that is stated twice in a row.

The second statement finds nothing left to suppress, as the first has taken it all away and the fact does not suppress its
own mixin; and what it adds to the entry of its mixin is there already. So the context stays as it is but for its warnings,
and for one conflict more if the first statement made one (`repeat_alike`). Contexts that differ in this only are resolved
with the same order and the same hash, or not at all (`Alike.resolve`).
- `wiped_of_spared`, `add_again`: the two halves of folding the second statement;
- `repeated_fact`: the whole, for every sequence of facts before it;
- `self_suppressed_moves`: of a fact that does suppress its own mixin the last statement in a row counts, with its own index;
- `alike_iff_spares_itself`: so the facts that count once are exactly those that do not.
-/
import MixinPlanner.Proofs.Conflicts
import MixinPlanner.Proofs.Members

namespace MixinPlanner

/-! ## Absorbing what is known -/

namespace MixinFact

/-- a fact that absorbs nothing new stays as it is -/
theorem absorb_of_subset {f later : MixinFact} (hdependencies : ∀ d ∈ later.dependencies, d ∈ f.dependencies)
    (hsuppresses : ∀ s ∈ later.suppresses, s ∈ f.suppresses) : f.absorb later = f := by
  have hset : f.suppresses.insertAll later.suppresses.toList = f.suppresses :=
    SortedBy.eq_of_mem_iff fun s => SortedBy.mem_insertAll.trans (or_iff_left_of_imp (hsuppresses s))
  rw [absorb, addNew_of_subset hdependencies, hset]

theorem absorb_self (f : MixinFact) : f.absorb f = f := absorb_of_subset (fun _ => id) fun _ => id

theorem absorb_absorb (f later : MixinFact) : (f.absorb later).absorb later = f.absorb later :=
  absorb_of_subset (fun d hd => (mem_addNew f.dependencies later.dependencies d).2 (.inr hd))
    fun _ hs => SortedBy.mem_insertAll.2 (.inr hs)

end MixinFact

namespace Context

/-! ## The second statement -/

/-- two contexts of one target with the same mixins and complete interfaces, both with conflicts or both without -/
structure Alike (c c' : Context) : Prop where
  target : c'.target = c.target
  mixins : c'.mixins = c.mixins
  completeInterfaces : c'.completeInterfaces = c.completeInterfaces
  conflicts : c'.conflicts ≠ [] ↔ c.conflicts ≠ []

theorem Alike.symm {c c' : Context} (h : Alike c c') : Alike c' c :=
  ⟨h.target.symm, h.mixins.symm, h.completeInterfaces.symm, h.conflicts.symm⟩

/-- suppressions that match no mixin only leave notes -/
theorem suppressAll_of_spared {byDefinition : Bool} (m : TypeRef) {c : Context} {l : List TypeRef}
    (h : ∀ e ∈ c.mixins, ∀ s ∈ l, suppresses byDefinition s e.mixin = false) :
    ∃ notes, l.foldl (suppress byDefinition m) c = { c with warnings := c.warnings ++ notes } := by
  induction l generalizing c with
  | nil => exact ⟨[], by simp⟩
  | cons s l ih =>
    have hnone : ((c.mixins.map MixinEntry.mixin).filter (suppresses byDefinition s)).isEmpty = true := by
      rw [List.isEmpty_iff, List.filter_eq_nil_iff, List.forall_mem_map]
      intro e he
      rw [h e he s List.mem_cons_self]
      decide
    have hnoted : c.suppress byDefinition m s = { c with warnings := c.warnings ++ [.unusedSuppression m s] } := by
      simp only [suppress, hnone, if_true]
    have hrest : ∀ e ∈ (c.suppress byDefinition m s).mixins, ∀ s' ∈ l, suppresses byDefinition s' e.mixin = false := by
      rw [hnoted]
      exact fun e he s' hs' => h e he s' (List.mem_cons_of_mem s hs')
    obtain ⟨notes, hnotes⟩ := ih hrest
    refine ⟨.unusedSuppression m s :: notes, ?_⟩
    rw [List.foldl_cons, hnotes, hnoted, List.append_cons c.warnings _ notes]

theorem wiped_of_spared {byDefinition : Bool} {c : Context} {f : MixinFact}
    (h : ∀ e ∈ c.mixins, (Fact.mixin f).wipes byDefinition e.mixin = false) :
    ∃ notes, c.wiped byDefinition f = { c with warnings := c.warnings ++ notes } := by
  refine suppressAll_of_spared f.mixin fun e he s hs => ?_
  simpa using List.any_eq_false.1 (h e he) s hs

/-- once a fact was folded it suppresses nothing that is left, if it does not suppress its own mixin -/
theorem spared_of_folded {byDefinition : Bool} {f : MixinFact} (hself : (Fact.mixin f).wipes byDefinition f.mixin = false)
    (c : Context) (n : ℕ) :
    ∀ e ∈ ((c.wiped byDefinition f).add f n).mixins, (Fact.mixin f).wipes byDefinition e.mixin = false := by
  have hwiped : ∀ e ∈ (c.wiped byDefinition f).mixins, (Fact.mixin f).wipes byDefinition e.mixin = false := by
    intro e he
    rw [wiped_mixins, List.mem_filter] at he
    simpa using he.2
  intro e he
  cases hfind : (c.wiped byDefinition f).find? f.mixin with
  | none =>
    rw [add_mixins_of_none _ f n hfind, List.mem_append, List.mem_singleton] at he
    rcases he with he | rfl
    · exact hwiped e he
    · exact hself
  | some known =>
    rw [add_mixins_of_some _ f n known hfind] at he
    obtain ⟨e', he', rfl⟩ := List.mem_map.1 he
    rw [absorbed_mixin]
    exact hwiped e' he'

/-- a fact that was added changes no entry when it is added again -/
theorem absorbed_of_added {c : Context} {f : MixinFact} {n : ℕ} {e : MixinEntry} (he : e ∈ (c.add f n).mixins) :
    absorbed f e = e := by
  cases hfind : c.find? f.mixin with
  | none =>
    rw [add_mixins_of_none c f n hfind, List.mem_append, List.mem_singleton] at he
    rcases he with he | rfl
    · exact if_neg ((find?_eq_none c f.mixin).1 hfind e he)
    · rw [absorbed, f.absorb_self, ite_self]
  | some known =>
    rw [add_mixins_of_some c f n known hfind] at he
    obtain ⟨e, -, rfl⟩ := List.mem_map.1 he
    by_cases hm : e.mixin = f.mixin
    · have hm' : (absorbed f e).mixin = f.mixin := (absorbed_mixin f e).trans hm
      rw [absorbed, if_pos hm', absorbed, if_pos hm, MixinFact.absorb_absorb]
    · have hm' : ¬ (absorbed f e).mixin = f.mixin := fun h => hm ((absorbed_mixin f e).symm.trans h)
      rw [absorbed, if_neg hm']

/-- adding a fact again makes a conflict only if adding it made one -/
theorem conflicts_add_again (c : Context) (f : MixinFact) (n n' : ℕ) :
    ((c.add f n).add f n').conflicts ≠ [] ↔ (c.add f n).conflicts ≠ [] := by
  have hentry : (c.add f n).find? f.mixin = some (joined (c.find? f.mixin) (f, n)) := by rw [find?_add, if_pos rfl]
  rw [add_conflicts_of_some _ f n' _ hentry]
  cases hfind : c.find? f.mixin with
  | none =>
    have hsame : (joined none (f, n)).fact.application = f.application := rfl
    rw [if_pos hsame]
  | some e =>
    have hsame : (joined (some e) (f, n)).fact.application = e.fact.application := rfl
    rw [hsame, add_conflicts_of_some c f n e hfind]
    split_ifs
    · rfl
    · simp

/-- a fact that was added leaves the mixins as they are when it is added again -/
theorem add_again (c : Context) (f : MixinFact) (n n' : ℕ) : Alike (c.add f n) ((c.add f n).add f n') := by
  have hentry : (c.add f n).find? f.mixin = some (joined (c.find? f.mixin) (f, n)) := by rw [find?_add, if_pos rfl]
  obtain ⟨htarget, hcomplete⟩ := (c.add f n).add_same f n'
  refine ⟨htarget, ?_, hcomplete, conflicts_add_again c f n n'⟩
  rw [add_mixins_of_some _ f n' _ hentry]
  exact (List.map_congr_left fun e he => absorbed_of_added he).trans (List.map_id _)

/-- adding a fact does not look at warnings -/
theorem add_noted (c : Context) (warnings : List Warning) (f : MixinFact) (n : ℕ) :
    ({ c with warnings } : Context).add f n = { c.add f n with warnings } := by
  have hfind : ({ c with warnings } : Context).find? f.mixin = c.find? f.mixin := rfl
  simp only [add, hfind]
  cases c.find? f.mixin <;> rfl

/-- **One fact folded twice in a row** leaves a context like the one that it left at first. -/
theorem repeat_alike {byDefinition : Bool} {f : MixinFact} (hself : (Fact.mixin f).wipes byDefinition f.mixin = false)
    (c : Context) (n n' : ℕ) :
    Alike (c.fold byDefinition (.mixin f, n)) ((c.fold byDefinition (.mixin f, n)).fold byDefinition (.mixin f, n')) := by
  obtain ⟨notes, hnotes⟩ := wiped_of_spared (spared_of_folded hself c n)
  obtain ⟨htarget, hmixins, hcomplete, hconflicts⟩ := add_again (c.wiped byDefinition f) f n n'
  rw [fold_mixin, fold_mixin, hnotes, add_noted ((c.wiped byDefinition f).add f n)]
  exact ⟨htarget, hmixins, hcomplete, hconflicts⟩

/-- a list of facts with one more that spares its own mixin, and the same list with that one twice -/
theorem build_alike (settings : Settings) (target : TypeRef) (facts : List Fact) {f : MixinFact}
    (h : ∀ s ∈ f.suppresses, ¬ Matches settings.suppressDefinitions s f.mixin) :
    (build settings target (facts ++ [Fact.mixin f])).Alike
      (build settings target (facts ++ [Fact.mixin f, Fact.mixin f])) := by
  have hself : (Fact.mixin f).wipes settings.suppressDefinitions f.mixin = false := by
    rw [← Bool.not_eq_true, Fact.wipes_iff]
    rintro ⟨s, hs, hm⟩
    exact h s hs hm
  rw [List.append_cons facts _ [Fact.mixin f], build_snoc _ _ (facts ++ _), build_snoc]
  exact repeat_alike hself _ _ _

/-! ## What is resolved -/

section Resolve

variable {c c' : Context} {settings : Settings} {catalog : Catalog}

/-- nothing is wrong with a context without looking at its graph -/
theorem problems_eq_nil_iff (h : c.Kept) : c.problems catalog = [] ↔ c.conflicts = [] ∧
    (∀ e ∈ c.mixins, c.argumentProblem catalog e.mixin = none) ∧
      ∀ i ∈ c.completeInterfaces, c.interfaceProblem catalog i = none := by
  simp only [problems, mixinProblems, List.append_eq_nil_iff, List.flatMap_eq_nil_iff, List.map_eq_nil_iff,
    List.filter_eq_nil_iff, beq_iff_eq, Option.toList_eq_nil_iff, List.filterMap_eq_nil_iff]
  constructor
  · rintro ⟨hmixins, hinterfaces⟩
    refine ⟨List.eq_nil_iff_forall_not_mem.2 fun k hk => ?_, fun e he => (hmixins e he).2, hinterfaces⟩
    -- a conflict is found with its mixin
    obtain ⟨e, he, hem⟩ := List.mem_map.1 (h k hk)
    exact (hmixins e he).1 k hk hem.symm
  · rintro ⟨hconflicts, harguments, hinterfaces⟩
    exact ⟨fun e he => ⟨by simp [hconflicts], harguments e he⟩, hinterfaces⟩

/-- contexts that are alike are resolved alike: in one order with one hash, or not at all -/
theorem Alike.resolve (h : Alike c c') (hc : c.Kept) (hc' : c'.Kept) {plan : Plan}
    (hplan : c.resolve settings catalog = .ok plan) :
    ∃ plan', c'.resolve settings catalog = .ok plan' ∧ plan'.order = plan.order ∧ plan'.contentHash = plan.contentHash := by
  obtain ⟨hproblems, hissues, order, horder, rfl⟩ := resolve_eq_ok_iff.1 hplan
  obtain ⟨hnone, harguments, hinterfaces⟩ := (problems_eq_nil_iff hc).1 hproblems
  have hnone' : c'.conflicts = [] := by simpa [hnone] using h.conflicts
  -- with the same mixins in it the other context has the same graph and the same checks
  obtain ⟨target, mixins, completeInterfaces, conflicts, warnings⟩ := c'
  obtain ⟨htarget, hmixins, hcomplete, -⟩ := h
  obtain rfl : target = c.target := htarget
  obtain rfl : mixins = c.mixins := hmixins
  obtain rfl : completeInterfaces = c.completeInterfaces := hcomplete
  refine ⟨_, resolve_eq_ok_iff.2 ⟨(problems_eq_nil_iff hc').2 ⟨hnone', harguments, hinterfaces⟩, hissues, order, horder,
    rfl⟩, rfl, rfl⟩

end Resolve

end Context

/-- **A fact that is stated twice in a row counts once.** It may be new, join an earlier declaration, conflict with it, and
suppress other mixins by name or by definition; if only it does not suppress its own mixin, the context has the same mixins
with the same indices, dependencies and suppressions, the same complete interfaces, and a conflict if it had one. It resolves
against every catalog if it did, with the same order and the same hash. -/
theorem repeated_fact (settings : Settings) (target : TypeRef) (facts : List Fact) (f : MixinFact)
    (h : ∀ s ∈ f.suppresses, ¬ Matches settings.suppressDefinitions s f.mixin) :
    (Context.build settings target (facts ++ [Fact.mixin f])).Alike
      (Context.build settings target (facts ++ [Fact.mixin f, Fact.mixin f])) ∧
    ∀ catalog,
      ((∃ plan, resolve settings catalog target (facts ++ [Fact.mixin f]) = .ok plan) ↔
        ∃ plan, resolve settings catalog target (facts ++ [Fact.mixin f, Fact.mixin f]) = .ok plan) ∧
      ∀ plan plan', resolve settings catalog target (facts ++ [Fact.mixin f]) = .ok plan →
        resolve settings catalog target (facts ++ [Fact.mixin f, Fact.mixin f]) = .ok plan' →
          plan'.order = plan.order ∧ plan'.contentHash = plan.contentHash := by
  have halike := Context.build_alike settings target facts h
  have honce := Context.build_kept settings target (facts ++ [Fact.mixin f])
  have htwice := Context.build_kept settings target (facts ++ [Fact.mixin f, Fact.mixin f])
  refine ⟨halike, fun catalog => ⟨⟨?_, ?_⟩, fun plan plan' hplan hplan' => ?_⟩⟩
  · rintro ⟨plan, hplan⟩
    exact (halike.resolve honce htwice hplan).imp fun _ => And.left
  · rintro ⟨plan, hplan⟩
    exact (halike.symm.resolve htwice honce hplan).imp fun _ => And.left
  · obtain ⟨plan₂, hplan₂, hsame⟩ := halike.resolve honce htwice hplan
    obtain rfl : plan₂ = plan' := Except.ok.inj (hplan₂.symm.trans hplan')
    exact hsame

/-- an audit, a cache of orders and a log -/
def cachedFacts : List Fact :=
  [.mixin { mixin := ⟨"Audit", []⟩ }, .mixin { mixin := ⟨"Cache", [.closed ⟨"Order", []⟩]⟩ },
   .mixin { mixin := ⟨"Log", []⟩ }]

/-- the audit once more: it depends on the log, and suppresses every cache by its definition -/
def auditFact : MixinFact :=
  { mixin := ⟨"Audit", []⟩, dependencies := [⟨"Log", []⟩], suppresses := .ofList [⟨"Cache", [.param "T"]⟩] }

/-- the second statement has no cache left to suppress, which is noted, and the plan is the same -/
theorem auditFact_repeated :
    (∀ s ∈ auditFact.suppresses, ¬ Matches true s auditFact.mixin) ∧
      Context.build { suppressDefinitions := true } ⟨"Order", []⟩ (cachedFacts ++ [Fact.mixin auditFact]) ≠
        Context.build { suppressDefinitions := true } ⟨"Order", []⟩ (cachedFacts ++ [Fact.mixin auditFact, Fact.mixin auditFact]) ∧
      ∃ plan plan', plan.order = [⟨"Audit", []⟩, ⟨"Log", []⟩] ∧ plan'.order = plan.order ∧
        plan'.contentHash = plan.contentHash ∧
        resolve { suppressDefinitions := true } .empty ⟨"Order", []⟩ (cachedFacts ++ [Fact.mixin auditFact]) = .ok plan ∧
        resolve { suppressDefinitions := true } .empty ⟨"Order", []⟩ (cachedFacts ++ [Fact.mixin auditFact, Fact.mixin auditFact]) =
          .ok plan' := by
  have hself : ∀ s ∈ auditFact.suppresses, ¬ Matches true s auditFact.mixin := by
    simp only [← suppresses_iff]
    show ∀ s ∈ auditFact.suppresses.toList, ¬ suppresses true s auditFact.mixin = true
    decide
  obtain ⟨-, hresolve⟩ := repeated_fact { suppressDefinitions := true } ⟨"Order", []⟩ cachedFacts auditFact hself
  obtain ⟨hboth, hsame⟩ := hresolve .empty
  obtain ⟨plan, horder, hplan⟩ : ∃ plan, plan.order = [⟨"Audit", []⟩, ⟨"Log", []⟩] ∧
      resolve { suppressDefinitions := true } .empty ⟨"Order", []⟩ (cachedFacts ++ [Fact.mixin auditFact]) = .ok plan :=
    ⟨_, rfl, rfl⟩
  obtain ⟨plan', hplan'⟩ := hboth.1 ⟨plan, hplan⟩
  obtain ⟨horder', hhash⟩ := hsame plan plan' hplan hplan'
  exact ⟨hself, by decide, plan, plan', horder, horder', hhash, hplan, hplan'⟩

/-! ## A fact that suppresses its own mixin -/

namespace Context

/-- a fact that suppresses its own mixin is entered on its own, after what it spares -/
theorem fold_of_wiped {byDefinition : Bool} {f : MixinFact} (hself : (Fact.mixin f).wipes byDefinition f.mixin = true)
    {c : Context} (hc : c.Kept) (n : ℕ) :
    (c.fold byDefinition (.mixin f, n)).mixins =
        (c.mixins.filter fun e => !(Fact.mixin f).wipes byDefinition e.mixin) ++ [⟨f, n⟩] ∧
      (c.fold byDefinition (.mixin f, n)).conflicts =
        c.conflicts.filter fun k => !(Fact.mixin f).wipes byDefinition k.mixin := by
  have hnone : (c.wiped byDefinition f).find? f.mixin = none := by rw [find?_wiped, if_pos hself]
  rw [fold_mixin, add_mixins_of_none _ f n hnone, add_conflicts_of_none _ f n hnone, wiped_mixins,
    wiped_conflicts byDefinition f hc]
  exact ⟨rfl, rfl⟩

end Context

section SelfSuppressed

variable (settings : Settings) (target : TypeRef) (facts : List Fact) (f : MixinFact)

/-- **A fact that suppresses its own mixin takes its earlier statements back.** However often it is stated in a row, its last
statement alone counts: the mixin stands after all that the fact spares, with the index of that statement, and conflicts with
nothing. -/
theorem self_suppressed_moves (h : ∃ s ∈ f.suppresses, Matches settings.suppressDefinitions s f.mixin) (n : ℕ) :
    (Context.build settings target (facts ++ List.replicate (n + 1) (Fact.mixin f))).mixins =
        ((Context.build settings target facts).mixins.filter
          fun e => !(Fact.mixin f).wipes settings.suppressDefinitions e.mixin) ++ [⟨f, facts.length + n⟩] ∧
      (Context.build settings target (facts ++ List.replicate (n + 1) (Fact.mixin f))).conflicts =
        (Context.build settings target facts).conflicts.filter
          fun k => !(Fact.mixin f).wipes settings.suppressDefinitions k.mixin := by
  have hself := (Fact.wipes_iff settings.suppressDefinitions f f.mixin).2 h
  induction n with
  | zero =>
    rw [List.replicate_one, Context.build_snoc]
    exact Context.fold_of_wiped hself (Context.build_kept settings target facts) facts.length
  | succ n ih =>
    obtain ⟨hmixins, hconflicts⟩ := ih
    obtain ⟨hmixins', hconflicts'⟩ := Context.fold_of_wiped hself
      (Context.build_kept settings target (facts ++ List.replicate (n + 1) (Fact.mixin f))) (facts.length + (n + 1))
    have hlength : (facts ++ List.replicate (n + 1) (Fact.mixin f)).length = facts.length + (n + 1) := by simp
    -- the statement before is taken away, and what it has spared is spared again
    have hlast : [(⟨f, facts.length + n⟩ : MixinEntry)].filter
        (fun e => !(Fact.mixin f).wipes settings.suppressDefinitions e.mixin) = [] :=
      List.filter_eq_nil_iff.2 (by simp [MixinEntry.mixin, hself])
    rw [List.replicate_succ', ← List.append_assoc, Context.build_snoc, hlength, hmixins', hconflicts', hmixins, hconflicts,
      List.filter_append, hlast, List.append_nil, List.filter_filter, List.filter_filter]
    simp only [Bool.and_self, and_self]

/-- a cache of orders that suppresses every cache, itself included -/
def soleCache : MixinFact :=
  { mixin := ⟨"Cache", [.closed ⟨"Order", []⟩]⟩, suppresses := .ofList [⟨"Cache", [.param "T"]⟩] }

example : (Context.build { suppressDefinitions := true } ⟨"Order", []⟩ [.mixin soleCache, .mixin soleCache]).mixins =
    [⟨soleCache, 1⟩] := by decide

/-- **Exactly the facts that do not suppress their own mixin count once.** The others have moved their mixin. -/
theorem alike_iff_spares_itself : (Context.build settings target (facts ++ [Fact.mixin f])).Alike
    (Context.build settings target (facts ++ [Fact.mixin f, Fact.mixin f])) ↔
      ∀ s ∈ f.suppresses, ¬ Matches settings.suppressDefinitions s f.mixin := by
  refine ⟨fun halike s hs hm => ?_, Context.build_alike settings target facts⟩
  have honce := (self_suppressed_moves settings target facts f ⟨s, hs, hm⟩ 0).1
  have htwice := (self_suppressed_moves settings target facts f ⟨s, hs, hm⟩ 1).1
  -- the mixin would have to stand at both indices
  have hentries := htwice.symm.trans (halike.mixins.trans honce)
  have hindex := congrArg (List.map MixinEntry.declarationIndex) (List.append_cancel_left hentries)
  simp at hindex

end SelfSuppressed

end MixinPlanner
