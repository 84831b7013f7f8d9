/-
When a context is rejected, and what is reported of it then.

`Sound` says what a context has to be like, without the checks: no conflict, arguments that fit (`TakesArguments`), complete
interfaces that are covered (`Completes`), no dependency with several mixins for it or with none (`Ambiguous`,
`Unsatisfied`), and no cycle. `Findings` says what is reported of one that is not: a list for each check, in a fixed order.

- `argumentFault_eq_none`, `interfaceFault_eq_none`, `issue?_of_mem`: each check finds a fault just where there is one.
- `build_kept`: a conflict is always about a mixin that is left, so no conflict goes unreported.
- `exists_order_iff`: an order is missing just when there is a cycle.
- `resolve_fails_closed`: a plan is made of a sound context only, and of any other every finding is reported, and no more.
-/
import MixinPlanner.Proofs.Composition

namespace MixinPlanner

/-! ## What a context has to be like -/

/-- the generic arguments of an application fit its type: an unknown type has none, and a known one has as many as it has
parameters, where every type provides what its parameter asks for -/
def Catalog.TakesArguments (catalog : Catalog) (t : TypeRef) : Prop :=
  match catalog.decl? t with
  | none => t.arity = 0
  | some d => t.arity = d.genericParams.length ∧
      ∀ p u, (p, .closed u) ∈ d.genericParams.zip t.args → ∀ i ∈ p.constraints, catalog.provides u i = true

namespace Context

variable (settings : Settings) (catalog : Catalog) (c : Context)

/-- the mixins that are left -/
def mixinTypes : List TypeRef := c.mixins.map MixinEntry.mixin

/-- an interface is declared as one, and has no member or one that the target or a mixin has -/
structure Completes (i : TypeRef) : Prop where
  known : catalog.isInterface i = true
  covered : (∀ m, m ∉ catalog.members i) ∨
    ∃ m ∈ catalog.members i, ∃ t, (t = c.target ∨ t ∈ c.mixinTypes) ∧ m ∈ catalog.members t

/-- a mixin other than `m` that a dependency may stand for: it implements the dependency, if that is an interface, and
otherwise it applies the dependency, if that is a definition -/
structure Candidate (m d n : TypeRef) : Prop where
  mem : n ∈ c.mixinTypes
  other : n ≠ m
  stands : if catalog.isInterface d then catalog.implements n d = true else (∀ u, .closed u ∉ d.args) ∧ n.name = d.name

/-- no mixin is the dependency, and there are several that it may stand for -/
structure Ambiguous (m d : TypeRef) : Prop where
  absent : d ∉ c.mixinTypes
  several : ∃ n n', n ≠ n' ∧ c.Candidate catalog m d n ∧ c.Candidate catalog m d n'

/-- no mixin is the dependency, there is none that it may stand for, and it may not be missing: an interface that the
target does not provide, or anything else where dependencies are strict -/
structure Unsatisfied (m d : TypeRef) : Prop where
  absent : d ∉ c.mixinTypes
  none : ∀ n, ¬ c.Candidate catalog m d n
  needed : if catalog.isInterface d then ¬ catalog.provides c.target d = true else settings.strictDependencies = true

/-- nothing is wrong with a context -/
structure Sound : Prop where
  conflicts : c.conflicts = []
  arguments : ∀ e ∈ c.mixins, catalog.TakesArguments e.mixin
  interfaces : ∀ f ∈ c.completeInterfaces, c.Completes catalog f.interface
  dependencies : ∀ e ∈ c.mixins, ∀ d ∈ e.fact.dependencies,
    ¬ c.Ambiguous catalog e.mixin d ∧ ¬ c.Unsatisfied settings catalog e.mixin d
  acyclic : ∀ w, ¬ IsCycle (DependencyGraph.build settings catalog c).Leads w

end Context

/-! ## What is reported -/

/-- what each check reports -/
structure Findings where
  arguments : MixinEntry → Option Problem
  interface : CompleteInterfaceFact → Option Problem
  dependency : Call → Option Problem
  cycle : Option Problem

namespace Findings

/-- the findings in order: for each mixin the conflicts about it and then its arguments; the complete interfaces; the
dependencies of each mixin; and the cycle -/
def problems (f : Findings) (c : Context) : List Problem :=
  (c.mixins.flatMap fun e =>
    (c.conflicts.filter fun k => k.mixin == e.mixin).map (MixinConflict.problem c.target) ++ (f.arguments e).toList) ++
    c.completeInterfaces.filterMap f.interface ++ c.calls.filterMap f.dependency ++ f.cycle.toList

/-- each check reports what fails it, as a problem of the context's target, and nothing else -/
structure Of (f : Findings) (settings : Settings) (catalog : Catalog) (c : Context) : Prop where
  arguments_none : ∀ e ∈ c.mixins, f.arguments e = none ↔ catalog.TakesArguments e.mixin
  arguments_some : ∀ e ∈ c.mixins, ∀ p, f.arguments e = some p →
    ∃ expected reason, p = .invalidArguments c.target e.mixin expected e.mixin.arity reason
  interface_none : ∀ i ∈ c.completeInterfaces, f.interface i = none ↔ c.Completes catalog i.interface
  interface_some : ∀ i ∈ c.completeInterfaces, ∀ p, f.interface i = some p →
    ∃ reason, p = .unsatisfiableInterface c.target i.interface reason
  dependency_none : ∀ k ∈ c.calls, f.dependency k = none ↔
    ¬ c.Ambiguous catalog k.mixin k.dependency ∧ ¬ c.Unsatisfied settings catalog k.mixin k.dependency
  dependency_ambiguous : ∀ k ∈ c.calls, c.Ambiguous catalog k.mixin k.dependency → ∃ candidates,
    f.dependency k = some (.ambiguousDependency c.target k.mixin k.dependency candidates) ∧
      ∀ n, n ∈ candidates ↔ c.Candidate catalog k.mixin k.dependency n
  dependency_unsatisfied : ∀ k ∈ c.calls, c.Unsatisfied settings catalog k.mixin k.dependency →
    f.dependency k = some (.unsatisfiedDependency c.target k.mixin k.dependency)
  cycle_none : f.cycle = none ↔ ∀ w, ¬ IsCycle (DependencyGraph.build settings catalog c).Leads w
  cycle_some : ∀ p, f.cycle = some p → ∃ ms, p = .cyclicDependency c.target ms

end Findings

/-! ## Arguments and interfaces -/

namespace Catalog

variable (catalog : Catalog)

theorem failedConstraint_eq_none (params : List GenericParam) (args : List TypeArg) :
    catalog.failedConstraint params args = none ↔
      ∀ p u, (p, .closed u) ∈ params.zip args → ∀ i ∈ p.constraints, catalog.provides u i = true := by
  unfold failedConstraint
  rw [List.findSome?_eq_none_iff]
  constructor
  · intro h p u hmem i hi
    have hnone := h _ hmem
    rw [Option.map_eq_none_iff, List.find?_eq_none] at hnone
    simpa using hnone i hi
  · rintro h ⟨p, a⟩ hmem
    cases a with
    | param q => rfl
    | closed u =>
      rw [Option.map_eq_none_iff, List.find?_eq_none]
      intro i hi
      simp [h p u hmem i hi]

theorem argumentFault_eq_none (t : TypeRef) : catalog.argumentFault t = none ↔ catalog.TakesArguments t := by
  unfold argumentFault TakesArguments
  cases catalog.decl? t with
  | none => simp
  | some d =>
    simp only
    split_ifs with hlen
    · simp [hlen]
    · rw [Option.map_eq_none_iff, failedConstraint_eq_none]
      exact (and_iff_right (not_not.1 hlen)).symm

end Catalog

namespace Context

variable (settings : Settings) (catalog : Catalog) (c : Context)

theorem mem_providedMembers (m : String) :
    m ∈ c.providedMembers catalog ↔ ∃ t, (t = c.target ∨ t ∈ c.mixinTypes) ∧ m ∈ catalog.members t := by
  simp only [providedMembers, List.mem_flatMap, List.mem_cons, mixinTypes]
  rfl

theorem covered_iff (i : TypeRef) :
    ((catalog.members i).toList.isEmpty || (catalog.members i).toList.any (c.providedMembers catalog).contains) = true ↔
      (∀ m, m ∉ catalog.members i) ∨
        ∃ m ∈ catalog.members i, ∃ t, (t = c.target ∨ t ∈ c.mixinTypes) ∧ m ∈ catalog.members t := by
  simp only [Bool.or_eq_true, List.isEmpty_iff, List.any_eq_true, List.contains_iff_mem, mem_providedMembers,
    List.eq_nil_iff_forall_not_mem]
  rfl

theorem interfaceFault_eq_none (i : TypeRef) : c.interfaceFault catalog i = none ↔ c.Completes catalog i := by
  unfold interfaceFault
  simp only [Bool.not_eq_true']
  split_ifs with hknown hcovered
  · refine iff_of_false (by simp) fun h => ?_
    rw [h.known] at hknown
    cases hknown
  · exact iff_of_true rfl ⟨by simpa using hknown, (covered_iff catalog c i).1 hcovered⟩
  · exact iff_of_false (by simp) fun h => hcovered ((covered_iff catalog c i).2 h.covered)

end Context

/-! ## Dependencies -/

namespace DependencyGraph

/-- whether a mixin is one that a dependency may stand for -/
def stands (catalog : Catalog) (d n : TypeRef) : Bool :=
  if catalog.isInterface d then catalog.implements n d else d.isDefinition && n.sameDefinition d

theorem stands_iff (catalog : Catalog) (d n : TypeRef) : stands catalog d n = true ↔
    if catalog.isInterface d then catalog.implements n d = true else (∀ u, .closed u ∉ d.args) ∧ n.name = d.name := by
  unfold stands
  split_ifs
  · exact .rfl
  · rw [Bool.and_eq_true, TypeRef.isDefinition_iff, TypeRef.sameDefinition, beq_iff_eq]

/-- why there is a link to a mixin that a dependency stands for -/
def standsBy (catalog : Catalog) (d : TypeRef) : LinkOrigin := if catalog.isInterface d then .interface else .definition

/-- looking up a dependency that is no mixin is choosing among those that it may stand for -/
theorem lookup_eq_choose {g : DependencyGraph} {d : TypeRef} (catalog : Catalog) (i : ℕ) (h : d ∉ g.nodes) :
    g.lookup catalog i d = choose (standsBy catalog d)
      (if catalog.isInterface d && catalog.provides g.target d then .satisfied else .missing)
      (g.others i (stands catalog d)) := by
  rw [lookup_of_not_mem catalog i h]
  have hstands : stands catalog d = fun n =>
      if catalog.isInterface d then catalog.implements n d else d.isDefinition && n.sameDefinition d := rfl
  rw [standsBy, hstands]
  by_cases hi : catalog.isInterface d = true
  · simp [hi]
  · by_cases hd : d.isDefinition = true
    · simp [hi, hd]
    · simp [hi, hd, others, choose]

/-- the other mixins that a dependency of `m` may stand for, in the order of the mixins -/
def candidates (catalog : Catalog) (c : Context) (m d : TypeRef) : List TypeRef :=
  c.mixinTypes.filter fun n => n != m && stands catalog d n

variable {settings : Settings} {catalog : Catalog} {c : Context}

theorem mem_candidates (m d n : TypeRef) : n ∈ candidates catalog c m d ↔ c.Candidate catalog m d n := by
  rw [candidates, List.mem_filter, Bool.and_eq_true, bne_iff_ne, stands_iff]
  constructor
  · rintro ⟨hmem, hother, hstands⟩
    exact ⟨hmem, hother, hstands⟩
  · intro h
    exact ⟨h.mem, h.other, h.stands⟩

theorem candidates_nodup (hn : c.mixinTypes.Nodup) (m d : TypeRef) : (candidates catalog c m d).Nodup := hn.filter _

/-- the nodes other than the caller's are the mixins other than the caller -/
theorem others_candidates (hn : c.mixinTypes.Nodup) {k : Call} (hk : k ∈ c.calls) :
    ((bare c).others k.position (stands catalog k.dependency)).map Prod.fst =
      candidates catalog c k.mixin k.dependency := by
  have hcaller : c.mixinTypes[k.position]? = some k.mixin := caller_of_mem hk
  have hfst : (bare c).nodes.zipIdx.map Prod.fst = c.mixinTypes := List.zipIdx_map_fst 0 _
  have hother : ∀ x ∈ (bare c).nodes.zipIdx, (x.2 != k.position) = (x.1 != k.mixin) := by
    rintro ⟨n, j⟩ hx
    have hj : c.mixinTypes[j]? = some n := List.mem_zipIdx_iff_getElem?.1 hx
    rw [Bool.eq_iff_iff, bne_iff_ne, bne_iff_ne]
    refine not_congr ⟨?_, ?_⟩
    · rintro rfl
      exact Option.some.inj (hj.symm.trans hcaller)
    · rintro rfl
      exact (List.getElem?_inj (List.getElem?_eq_some_iff.1 hj).1 hn).1 (hj.trans hcaller.symm)
  rw [candidates, ← hfst, List.filter_map, others]
  congr 1
  apply List.filter_congr
  intro x hx
  rw [Function.comp_apply, hother x hx]

/-- what the graph reports of a dependency -/
structure Reports (settings : Settings) (catalog : Catalog) (c : Context) (k : Call) (issue : Option Problem) : Prop where
  none : issue = none ↔
    ¬ c.Ambiguous catalog k.mixin k.dependency ∧ ¬ c.Unsatisfied settings catalog k.mixin k.dependency
  ambiguous : c.Ambiguous catalog k.mixin k.dependency → ∃ candidates,
    issue = some (.ambiguousDependency c.target k.mixin k.dependency candidates) ∧
      ∀ n, n ∈ candidates ↔ c.Candidate catalog k.mixin k.dependency n
  unsatisfied : c.Unsatisfied settings catalog k.mixin k.dependency →
    issue = some (.unsatisfiedDependency c.target k.mixin k.dependency)

theorem reports_of_mem {k : Call} (h : k.dependency ∈ c.mixinTypes) : Reports settings catalog c k none :=
  ⟨iff_of_true rfl ⟨fun ha => ha.absent h, fun hu => hu.absent h⟩, fun ha => absurd h ha.absent,
    fun hu => absurd h hu.absent⟩

/-- with one candidate, nothing is reported -/
theorem reports_of_sole {k : Call} {n : TypeRef} (h : ∀ n', c.Candidate catalog k.mixin k.dependency n' ↔ n' = n) :
    Reports settings catalog c k none := by
  have hnot : ¬ c.Ambiguous catalog k.mixin k.dependency := by
    intro ha
    obtain ⟨m, m', hne, hm, hm'⟩ := ha.several
    exact hne (((h m).1 hm).trans ((h m').1 hm').symm)
  have hsome : ¬ c.Unsatisfied settings catalog k.mixin k.dependency := fun hu => hu.none n ((h n).2 rfl)
  exact ⟨iff_of_true rfl ⟨hnot, hsome⟩, fun ha => absurd ha hnot, fun hu => absurd hu hsome⟩

/-- with several candidates, they are reported -/
theorem reports_of_several {k : Call} {candidates : List TypeRef} (habsent : k.dependency ∉ c.mixinTypes)
    (h : ∀ n, n ∈ candidates ↔ c.Candidate catalog k.mixin k.dependency n) (hn : candidates.Nodup)
    (hlen : 1 < candidates.length) :
    Reports settings catalog c k (some (.ambiguousDependency c.target k.mixin k.dependency candidates)) := by
  obtain ⟨n, n', hmem, hmem', hne⟩ : ∃ n n', n ∈ candidates ∧ n' ∈ candidates ∧ n ≠ n' :=
    ⟨candidates[0], candidates[1], List.getElem_mem _, List.getElem_mem _, fun he =>
      absurd (hn.getElem_inj_iff.1 he) (by decide)⟩
  have ha : c.Ambiguous catalog k.mixin k.dependency := ⟨habsent, n, n', hne, (h n).1 hmem, (h n').1 hmem'⟩
  refine ⟨iff_of_false (by simp) fun hno => hno.1 ha, fun _ => ⟨candidates, rfl, h⟩, fun hu => ?_⟩
  exact absurd ((h n).1 hmem) (hu.none n)

/-- without a candidate, nothing is reported of a dependency that may be missing -/
theorem reports_of_allowed {k : Call} (h : ∀ n, ¬ c.Candidate catalog k.mixin k.dependency n)
    (hallowed : ¬ c.Unsatisfied settings catalog k.mixin k.dependency) : Reports settings catalog c k none := by
  have hnot : ¬ c.Ambiguous catalog k.mixin k.dependency := fun ha => by
    obtain ⟨n, -, -, hn, -⟩ := ha.several
    exact h n hn
  exact ⟨iff_of_true rfl ⟨hnot, hallowed⟩, fun ha => absurd ha hnot, fun hu => absurd hu hallowed⟩

theorem reports_of_unsatisfied {k : Call} (hu : c.Unsatisfied settings catalog k.mixin k.dependency) :
    Reports settings catalog c k (some (.unsatisfiedDependency c.target k.mixin k.dependency)) := by
  refine ⟨iff_of_false (by simp) fun hno => hno.2 hu, fun ha => ?_, fun _ => rfl⟩
  obtain ⟨n, -, -, hn, -⟩ := ha.several
  exact absurd hn (hu.none n)

/-- **The issue of a dependency.** It is reported if there are several mixins for it, or none where there has to be one. -/
theorem issue?_of_mem (hn : c.mixinTypes.Nodup) {k : Call} (hk : k ∈ c.calls) :
    Reports settings catalog c k ((bare c).issue? settings catalog k) := by
  by_cases hmem : k.dependency ∈ c.mixinTypes
  · obtain ⟨j, -, hl⟩ := lookup_of_mem (g := bare c) catalog k.position hmem
    have hnone : (bare c).issue? settings catalog k = none := by simp [issue?, hl]
    exact hnone ▸ reports_of_mem hmem
  · have hl := lookup_eq_choose (g := bare c) catalog k.position hmem
    have hcandidate (n : TypeRef) : n ∈ ((bare c).others k.position (stands catalog k.dependency)).map Prod.fst ↔
        c.Candidate catalog k.mixin k.dependency n := others_candidates hn hk ▸ mem_candidates k.mixin k.dependency n
    have hnodup : (((bare c).others k.position (stands catalog k.dependency)).map Prod.fst).Nodup :=
      others_candidates hn hk ▸ candidates_nodup hn k.mixin k.dependency
    cases ho : (bare c).others k.position (stands catalog k.dependency) with
    | nil =>
      rw [ho] at hl hcandidate
      have hnone : ∀ n, ¬ c.Candidate catalog k.mixin k.dependency n :=
        fun n h => List.not_mem_nil ((hcandidate n).2 h)
      have htarget : (bare c).target = c.target := rfl
      simp only [issue?, hl, choose, htarget]
      by_cases hi : catalog.isInterface k.dependency = true
      · by_cases hp : catalog.provides c.target k.dependency = true
        · simp only [hi, hp, Bool.and_self, if_true]
          exact reports_of_allowed hnone fun hu => by simpa [hi, hp] using hu.needed
        · simp only [hi, hp, Bool.and_false, Bool.or_true, if_true, Bool.false_eq_true, if_false]
          exact reports_of_unsatisfied ⟨hmem, hnone, by simp [hi, hp]⟩
      · simp only [hi, Bool.false_and, Bool.or_false, Bool.false_eq_true, if_false]
        by_cases hs : settings.strictDependencies = true
        · rw [if_pos hs]
          exact reports_of_unsatisfied ⟨hmem, hnone, by simp [hi, hs]⟩
        · rw [if_neg hs]
          exact reports_of_allowed hnone fun hu => by simpa [hi, hs] using hu.needed
    | cons x rest =>
      rw [ho] at hl hcandidate hnodup
      cases rest with
      | nil =>
        have hnone : (bare c).issue? settings catalog k = none := by simp [issue?, hl, choose]
        refine hnone ▸ reports_of_sole (n := x.1) fun n => ?_
        rw [← hcandidate]
        simp
      | cons y rest =>
        have hsome : (bare c).issue? settings catalog k = some (.ambiguousDependency c.target k.mixin k.dependency
            ((x :: y :: rest).map Prod.fst)) := by
          simp only [issue?, hl, choose]
          rfl
        exact hsome ▸ reports_of_several hmem hcandidate hnodup (by simp)

/-! ## The cycle -/

/-- an order is missing just when there is a cycle -/
theorem exists_order_iff {g : DependencyGraph} (hg : g.Linked) :
    (∃ ms, g.order = .ok ms) ↔ ∀ w, ¬ IsCycle g.Leads w := by
  rw [← not_exists, exists_isCycle_iff, not_exists, ← placed_all_iff hg]
  simp only [order_ok_iff, positionOrder_ok_iff]
  exact ⟨fun ⟨_, _, h, _⟩ => h.1, fun h => ⟨_, _, ⟨h, rfl⟩, rfl⟩⟩

/-- the cycle as it is reported -/
def cycleProblem (g : DependencyGraph) (target : TypeRef) : Option Problem :=
  match g.order with
  | .ok _ => none
  | .error ms => some (.cyclicDependency target ms)

theorem cycleProblem_eq_none {g : DependencyGraph} (hg : g.Linked) (target : TypeRef) :
    g.cycleProblem target = none ↔ ∀ w, ¬ IsCycle g.Leads w := by
  rw [← exists_order_iff hg, cycleProblem]
  cases g.order with
  | ok ms => simp
  | error ms => simp

end DependencyGraph

/-! ## Conflicts -/

namespace Context

/-- every conflict is about a mixin that is left -/
def Kept (c : Context) : Prop := ∀ k ∈ c.conflicts, k.mixin ∈ c.mixinTypes

theorem suppress_kept (byDefinition : Bool) (m s : TypeRef) {c : Context} (h : c.Kept) :
    (c.suppress byDefinition m s).Kept := by
  intro k hk
  have hmixins := suppress_mixins byDefinition m c s
  simp only [suppress] at hk hmixins ⊢
  split_ifs at hk hmixins ⊢ with hremoved
  · exact h k hk
  · -- a conflict stays when its mixin is not among those removed
    obtain ⟨hk, hnot⟩ := List.mem_filter.1 hk
    have hmem := h k hk
    simp only [mixinTypes, List.mem_filter, decide_eq_true_eq, not_and] at hnot hmem ⊢
    obtain ⟨e, he, hem⟩ := List.mem_map.1 hmem
    exact List.mem_map.2 ⟨e, List.mem_filter.2 ⟨he, by simpa [hem] using hnot hmem⟩, hem⟩

theorem wiped_kept (byDefinition : Bool) (f : MixinFact) {c : Context} (h : c.Kept) : (c.wiped byDefinition f).Kept := by
  unfold wiped
  induction f.suppresses.toList generalizing c with
  | nil => exact h
  | cons s l ih => exact ih (suppress_kept byDefinition f.mixin s h)

theorem add_kept (f : MixinFact) (n : ℕ) {c : Context} (h : c.Kept) : (c.add f n).Kept := by
  cases hf : c.find? f.mixin with
  | none =>
    have hmixins : (c.add f n).mixinTypes = c.mixinTypes ++ [f.mixin] := by
      rw [mixinTypes, add_mixins_of_none c f n hf, List.map_append]
      rfl
    have hconflicts : (c.add f n).conflicts = c.conflicts := add_conflicts_of_none c f n hf
    intro k hk
    rw [hmixins]
    exact List.mem_append_left _ (h k (hconflicts ▸ hk))
  | some e =>
    have hmixins : (c.add f n).mixinTypes = c.mixinTypes := by
      rw [mixinTypes, add_mixins_of_some c f n e hf, List.map_map]
      exact List.map_congr_left fun e' _ => absorbed_mixin f e'
    have hmem : f.mixin ∈ c.mixinTypes :=
      List.mem_map.2 ⟨e, List.mem_of_find?_eq_some hf, mixin_of_find? hf⟩
    intro k hk
    rw [hmixins]
    simp only [add, hf] at hk
    split_ifs at hk
    · exact h k hk
    · rcases List.mem_append.1 hk with hk | hk
      · exact h k hk
      · rw [List.mem_singleton.1 hk]
        exact hmem

theorem build_kept (settings : Settings) (target : TypeRef) (facts : List Fact) :
    (build settings target facts).Kept := by
  induction facts using List.reverseRecOn with
  | nil => simp [Kept, build]
  | append_singleton facts x ih =>
    rw [build_snoc]
    cases x with
    | mixin f => exact add_kept f _ (wiped_kept _ f ih)
    | completeInterface f =>
      rw [fold_completeInterface, complete]
      split_ifs
      · exact ih
      · exact ih

end Context

/-! ## The verdict -/

/-- what the checks of a context find -/
def Context.findings (settings : Settings) (catalog : Catalog) (c : Context) : Findings where
  arguments e := c.argumentProblem catalog e.mixin
  interface f := c.interfaceProblem catalog f
  dependency k := (DependencyGraph.bare c).issue? settings catalog k
  cycle := (DependencyGraph.build settings catalog c).cycleProblem c.target

namespace Findings

variable {settings : Settings} {catalog : Catalog} {c : Context} {f : Findings}

theorem of_findings (hn : c.mixinTypes.Nodup) : (c.findings settings catalog).Of settings catalog c where
  arguments_none e _ := by
    show c.argumentProblem catalog e.mixin = none ↔ _
    rw [Context.argumentProblem, Option.map_eq_none_iff, catalog.argumentFault_eq_none]
  arguments_some e _ p h := by
    obtain ⟨⟨expected, reason⟩, -, rfl⟩ := Option.map_eq_some_iff.1 h
    exact ⟨expected, reason, rfl⟩
  interface_none i _ := by
    show c.interfaceProblem catalog i = none ↔ _
    rw [Context.interfaceProblem, Option.map_eq_none_iff, Context.interfaceFault_eq_none]
  interface_some i _ p h := by
    obtain ⟨reason, -, rfl⟩ := Option.map_eq_some_iff.1 h
    exact ⟨reason, rfl⟩
  dependency_none _ hk := (DependencyGraph.issue?_of_mem hn hk).none
  dependency_ambiguous _ hk := (DependencyGraph.issue?_of_mem hn hk).ambiguous
  dependency_unsatisfied _ hk := (DependencyGraph.issue?_of_mem hn hk).unsatisfied
  cycle_none := DependencyGraph.cycleProblem_eq_none (DependencyGraph.linked_build settings catalog c) c.target
  cycle_some p h := by
    have h : (DependencyGraph.build settings catalog c).cycleProblem c.target = some p := h
    unfold DependencyGraph.cycleProblem at h
    split at h
    next => cases h
    next ms _ =>
      cases h
      exact ⟨ms, rfl⟩

/-- every problem found is one of the context's target -/
theorem Of.target (h : f.Of settings catalog c) : ∀ p ∈ f.problems c, p.target = c.target := by
  intro p hp
  simp only [problems, List.mem_append, List.mem_flatMap, List.mem_map, List.mem_filterMap, Option.mem_toList] at hp
  rcases hp with ((⟨e, he, ⟨k, -, rfl⟩ | hp⟩ | ⟨i, hi, hp⟩) | ⟨k, hk, hp⟩) | hp
  · rfl
  · obtain ⟨_, _, rfl⟩ := h.arguments_some e he p hp
    rfl
  · obtain ⟨_, rfl⟩ := h.interface_some i hi p hp
    rfl
  · by_cases ha : c.Ambiguous catalog k.mixin k.dependency
    · obtain ⟨candidates, hsome, -⟩ := h.dependency_ambiguous k hk ha
      rw [hsome] at hp
      cases hp
      rfl
    · by_cases hu : c.Unsatisfied settings catalog k.mixin k.dependency
      · rw [h.dependency_unsatisfied k hk hu] at hp
        cases hp
        rfl
      · rw [(h.dependency_none k hk).2 ⟨ha, hu⟩] at hp
        cases hp
  · obtain ⟨_, rfl⟩ := h.cycle_some p hp
    rfl

/-- nothing is found exactly in a sound context -/
theorem Of.problems_eq_nil (h : f.Of settings catalog c) (hk : c.Kept) :
    f.problems c = [] ↔ c.Sound settings catalog := by
  simp only [problems, List.append_eq_nil_iff, List.flatMap_eq_nil_iff, List.map_eq_nil_iff, List.filter_eq_nil_iff,
    beq_iff_eq, Option.toList_eq_nil_iff, List.filterMap_eq_nil_iff]
  constructor
  · intro ⟨⟨⟨hmixins, hinterfaces⟩, hdependencies⟩, hcycle⟩
    refine ⟨?_, fun e he => (h.arguments_none e he).1 (hmixins e he).2, fun i hi => (h.interface_none i hi).1
      (hinterfaces i hi), fun e he d hd => ?_, h.cycle_none.1 hcycle⟩
    · -- a conflict would have been found with its mixin
      refine List.eq_nil_iff_forall_not_mem.2 fun k hkc => ?_
      obtain ⟨e, he, hem⟩ := List.mem_map.1 (hk k hkc)
      exact (hmixins e he).1 k hkc hem.symm
    · obtain ⟨i, hi⟩ := List.mem_iff_getElem?.1 he
      have hcall : ⟨e.mixin, i, d⟩ ∈ c.calls := (c.mem_calls _).2 ⟨e, hi, rfl, hd⟩
      exact (h.dependency_none _ hcall).1 (hdependencies _ hcall)
  · intro hs
    refine ⟨⟨⟨fun e he => ⟨by simp [hs.conflicts], (h.arguments_none e he).2 (hs.arguments e he)⟩,
      fun i hi => (h.interface_none i hi).2 (hs.interfaces i hi)⟩, fun k hkc => ?_⟩, h.cycle_none.2 hs.acyclic⟩
    obtain ⟨e, he, hem, hd⟩ := (c.mem_calls k).1 hkc
    exact (h.dependency_none k hkc).2 (hem ▸ hs.dependencies e (List.mem_of_getElem? he) _ hd)

end Findings

namespace Context

variable (settings : Settings) (catalog : Catalog) (c : Context)

theorem findings_problems : (c.findings settings catalog).problems c =
    c.problems catalog ++ (DependencyGraph.build settings catalog c).issues ++
      ((DependencyGraph.build settings catalog c).cycleProblem c.target).toList := by
  have hissues := (DependencyGraph.build_entered settings catalog c).issues
  have hbare : (DependencyGraph.bare c).issues = [] := rfl
  rw [hbare, List.nil_append] at hissues
  rw [hissues]
  rfl

/-- a context is resolved when nothing is found, and otherwise all that is found is reported -/
theorem resolve_eq_error_iff (problems : List Problem) : c.resolve settings catalog = .error problems ↔
    problems ≠ [] ∧ problems = (c.findings settings catalog).problems c := by
  rw [findings_problems]
  simp only [resolve, validate, DependencyGraph.cycleProblem]
  cases (DependencyGraph.build settings catalog c).order with
  | error ms =>
    simp only [Except.error.injEq, Option.toList_some]
    constructor
    · rintro rfl
      exact ⟨by simp, rfl⟩
    · exact fun h => h.2.symm
  | ok order =>
    simp only [Option.toList_none, List.append_nil]
    split_ifs with hfound
    · rw [List.isEmpty_iff] at hfound
      simp [hfound]
    · rw [List.isEmpty_iff] at hfound
      simp only [Except.error.injEq]
      constructor
      · rintro rfl
        exact ⟨hfound, rfl⟩
      · exact fun h => h.2.symm

/-- **Resolution fails closed, and reports everything.** A context built from facts has a plan just when it is sound. If
it has none, the problems reported are not empty, they are the findings of all checks in their order, and each is a problem
of the target. -/
theorem resolve_fails_closed (built : Settings) (target : TypeRef) (facts : List Fact) :
    ((∃ plan, (build built target facts).resolve settings catalog = .ok plan) ↔
      (build built target facts).Sound settings catalog) ∧
    ∀ problems, (build built target facts).resolve settings catalog = .error problems →
      problems ≠ [] ∧ (∃ f : Findings, f.Of settings catalog (build built target facts) ∧
        problems = f.problems (build built target facts)) ∧ ∀ p ∈ problems, p.target = target := by
  have hn : (build built target facts).mixinTypes.Nodup := mixins_nodup built target facts
  have hfindings : ((build built target facts).findings settings catalog).Of settings catalog
      (build built target facts) := Findings.of_findings hn
  have hempty := hfindings.problems_eq_nil (build_kept built target facts)
  refine ⟨?_, fun problems h => ?_⟩
  · rw [← hempty]
    cases h : (build built target facts).resolve settings catalog with
    | ok plan =>
      refine iff_of_true ⟨plan, rfl⟩ (by_contra fun hne => ?_)
      rw [(resolve_eq_error_iff ..).2 ⟨hne, rfl⟩] at h
      cases h
    | error problems =>
      obtain ⟨hne, rfl⟩ := (resolve_eq_error_iff ..).1 h
      exact iff_of_false (by simp) hne
  · obtain ⟨hne, rfl⟩ := (resolve_eq_error_iff ..).1 h
    refine ⟨hne, ⟨_, hfindings, rfl⟩, fun p hp => ?_⟩
    rw [hfindings.target p hp, build_target]

/-- an interface with a member, two classes that implement another one, and a class with a parameter -/
def brokenCatalog : Catalog :=
  .ofList [(TypeDecl.ofInterface "IShip").withMember "Ship", .ofInterface "ILog",
    (TypeDecl.ofClass "FileLog").implementing ⟨"ILog", []⟩, (TypeDecl.ofClass "NetLog").implementing ⟨"ILog", []⟩,
    (TypeDecl.ofClass "Cache").withParam "T" []]

/-- facts with which everything is wrong -/
def brokenFacts : List Fact :=
  let type (name : String) : TypeRef := ⟨name, []⟩
  [.mixin { mixin := type "FileLog" }, .mixin { mixin := type "NetLog" },
   .mixin { mixin := type "FileLog", visibility := .hidden },
   .mixin { mixin := ⟨"Cache", [.param "A", .param "B"]⟩ },
   .completeInterface ⟨type "IShip", none⟩,
   .mixin { mixin := type "Retry", dependencies := [type "Audit", type "ILog", type "Metrics"] },
   .mixin { mixin := type "Audit", dependencies := [type "Retry"] }]

/-- one problem of each kind, in the order of the checks -/
theorem brokenFacts_fail_closed : ¬ (build {} ⟨"T", []⟩ brokenFacts).Sound {} brokenCatalog ∧
    ∃ problems, (build {} ⟨"T", []⟩ brokenFacts).resolve {} brokenCatalog = .error problems ∧
      problems.map Problem.className = ["mixin.conflicting_application", "mixin.invalid_generic_arguments",
        "mixin.unsatisfiable_complete_interface", "mixin.ambiguous_dependency", "mixin.unsatisfied_dependency",
        "mixin.cyclic_dependency"] ∧
      (∃ f : Findings, f.Of {} brokenCatalog (build {} ⟨"T", []⟩ brokenFacts) ∧
        problems = f.problems (build {} ⟨"T", []⟩ brokenFacts)) ∧ ∀ p ∈ problems, p.target = ⟨"T", []⟩ := by
  obtain ⟨hsound, hfailed⟩ := resolve_fails_closed {} brokenCatalog {} ⟨"T", []⟩ brokenFacts
  have hclasses : (match (build {} ⟨"T", []⟩ brokenFacts).resolve {} brokenCatalog with
      | .ok _ => []
      | .error problems => problems.map Problem.className) =
        ["mixin.conflicting_application", "mixin.invalid_generic_arguments", "mixin.unsatisfiable_complete_interface",
          "mixin.ambiguous_dependency", "mixin.unsatisfied_dependency", "mixin.cyclic_dependency"] := by rfl
  cases h : (build {} ⟨"T", []⟩ brokenFacts).resolve {} brokenCatalog with
  | ok plan => rw [h] at hclasses; cases hclasses
  | error problems =>
    rw [h] at hclasses
    obtain ⟨-, hfindings, htarget⟩ := hfailed problems h
    refine ⟨fun hs => ?_, problems, rfl, hclasses, hfindings, htarget⟩
    obtain ⟨plan, hplan⟩ := hsound.2 hs
    rw [h] at hplan
    cases hplan

end Context

end MixinPlanner
