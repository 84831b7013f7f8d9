/-
What strict dependencies change.

A dependency on something absent is an error where dependencies are strict, and ignored with a warning where they are lenient,
unless it is an interface, which may never be absent. Nothing else depends on that setting: every call finds the same
(`sameLinks_build`), and where the lenient graph has a warning the strict one has an issue (`Raised`).
- `raised_calls`: what is raised along a run of calls, by the result of each call's look-up;
- `strict_only_raises_ignored`: the strict run has the plan of the lenient one if that ignores nothing, and otherwise no plan.
-/
import MixinPlanner.Proofs.Rejection
import MixinPlanner.Proofs.Suppressions

namespace MixinPlanner

/-- the settings with dependencies strict: one on something absent is an error -/
def Settings.strict (s : Settings) : Settings := { s with strictDependencies := true }

/-- the settings with dependencies lenient: one on something absent is ignored with a warning -/
def Settings.lenient (s : Settings) : Settings := { s with strictDependencies := false }

/-- a problem with the dependency of a call: nothing provides it, or several mixins do -/
def Problem.Concerns (target : TypeRef) (k : Call) (p : Problem) : Prop :=
  p = .unsatisfiedDependency target k.mixin k.dependency ∨
    ∃ candidates, p = .ambiguousDependency target k.mixin k.dependency candidates

namespace DependencyGraph

/-! ## What stays -/

/-- graphs that differ at most in what is reported -/
structure SameLinks (g g' : DependencyGraph) : Prop extends SameNodes g g' where
  links : g'.links = g.links

theorem SameLinks.link {g g' : DependencyGraph} (h : SameLinks g g') (l : Link) : SameLinks (g.link l) (g'.link l) := by
  have hrefused : (l.dependent = l.dependency ∨ g'.size ≤ l.dependent ∨ g'.size ≤ l.dependency ∨
      g'.hasLink l.dependent l.dependency = true) ↔ (l.dependent = l.dependency ∨ g.size ≤ l.dependent ∨
        g.size ≤ l.dependency ∨ g.hasLink l.dependent l.dependency = true) := by
    rw [size, hasLink, h.nodes, h.links]
    rfl
  unfold DependencyGraph.link
  by_cases hl : l.dependent = l.dependency ∨ g.size ≤ l.dependent ∨ g.size ≤ l.dependency ∨
      g.hasLink l.dependent l.dependency = true
  · rw [if_pos hl, if_pos (hrefused.2 hl)]
    exact h
  · rw [if_neg hl, if_neg (mt hrefused.1 hl)]
    exact ⟨⟨h.target, h.nodes⟩, by rw [h.links]⟩

/-- a call links the same under all settings -/
theorem SameLinks.call {g g' : DependencyGraph} (h : SameLinks g g') (s s' : Settings) (catalog : Catalog) (k : Call) :
    SameLinks (g.call s catalog k) (g'.call s' catalog k) := by
  unfold DependencyGraph.call enter
  rw [lookup_same h.toSameNodes]
  cases g.lookup catalog k.position k.dependency with
  | found j origin => exact h.link _
  | satisfied => exact h
  | ambiguous candidates => exact ⟨⟨h.target, h.nodes⟩, h.links⟩
  | missing =>
    -- what is missing is reported as one thing or the other, and links nothing
    simp only
    split_ifs <;> exact ⟨⟨h.target, h.nodes⟩, h.links⟩

/-- a run of calls links the same under all settings -/
theorem SameLinks.callAll {g g' : DependencyGraph} (h : SameLinks g g') (s s' : Settings) (catalog : Catalog)
    (calls : List Call) : SameLinks (calls.foldl (DependencyGraph.call s catalog) g)
      (calls.foldl (DependencyGraph.call s' catalog) g') := by
  induction calls generalizing g g' with
  | nil => exact h
  | cons k calls ih => exact ih (h.call s s' catalog k)

/-- a graph has the same nodes and links under all settings -/
theorem sameLinks_build (s s' : Settings) (catalog : Catalog) (context : Context) :
    SameLinks (build s catalog context) (build s' catalog context) := by
  rw [build_eq_foldl_calls, build_eq_foldl_calls]
  exact SameLinks.callAll ⟨.refl _, rfl⟩ s s' catalog context.calls

section Same

variable {g g' : DependencyGraph} (h : SameLinks g g')

include h

theorem SameLinks.edges : g'.edges = g.edges := by
  rw [DependencyGraph.edges, h.links, h.nodes]
  rfl

/-- the order of the nodes, or the cycle that is found, depends on the links alone -/
theorem SameLinks.order : g'.order = g.order := by
  have hg : g' = { g with issues := g'.issues, warnings := g'.warnings } := by
    obtain ⟨⟨htarget, hnodes⟩, hlinks⟩ := h
    cases g
    cases g'
    cases htarget
    cases hnodes
    cases hlinks
    rfl
  calc g'.order = { g with issues := g'.issues, warnings := g'.warnings }.order := congrArg DependencyGraph.order hg
    _ = g.order := rfl

theorem SameLinks.cycleProblem (target : TypeRef) : g'.cycleProblem target = g.cycleProblem target := by
  rw [DependencyGraph.cycleProblem, h.order]
  rfl

end Same

/-! ## What is raised -/

/-- the issues and warnings of a lenient run of calls, and the issues of a strict one: along the calls each lenient issue is a
strict one too, and each warning is raised to an issue at its place -/
inductive Raised (target : TypeRef) : List Call → List Problem → List Warning → List Problem → Prop
  | done : Raised target [] [] [] []
  | silent {k : Call} {calls : List Call} {issues strict : List Problem} {warnings : List Warning}
      (rest : Raised target calls issues warnings strict) : Raised target (k :: calls) issues warnings strict
  | issue {k : Call} {calls : List Call} {issues strict : List Problem} {warnings : List Warning} {p : Problem}
      (concerns : p.Concerns target k) (rest : Raised target calls issues warnings strict) :
      Raised target (k :: calls) (p :: issues) warnings (p :: strict)
  | ignored {k : Call} {calls : List Call} {issues strict : List Problem} {warnings : List Warning}
      (rest : Raised target calls issues warnings strict) :
      Raised target (k :: calls) issues (.ignoredDependency k.mixin k.dependency :: warnings)
        (.unsatisfiedDependency target k.mixin k.dependency :: strict)

section Raised

variable {target : TypeRef} {calls : List Call} {issues strict : List Problem} {warnings : List Warning}

/-- the strict run has no issue exactly if the lenient one has neither an issue nor a warning -/
theorem Raised.strict_eq_nil_iff (h : Raised target calls issues warnings strict) :
    strict = [] ↔ issues = [] ∧ warnings = [] := by
  induction h with
  | done => simp
  | silent _ ih => exact ih
  | issue _ _ _ => simp
  | ignored _ _ => simp

/-- a lenient run warns of ignored dependencies only -/
theorem Raised.warning_eq (h : Raised target calls issues warnings strict) :
    ∀ w ∈ warnings, ∃ m d, w = .ignoredDependency m d := by
  induction h with
  | done => exact List.forall_mem_nil _
  | silent _ ih => exact ih
  | issue _ _ ih => exact ih
  | ignored _ ih => exact List.forall_mem_cons.2 ⟨⟨_, _, rfl⟩, ih⟩

end Raised

variable (g : DependencyGraph) (settings : Settings) (catalog : Catalog)

/-- **What strictness raises.** A call reports the same issue under both settings or none, and where it only warns of a
dependency that it ignores, the strict run has the dependency as unsatisfied. -/
theorem raised_calls (calls : List Call) : Raised g.target calls (calls.filterMap (g.issue? settings.lenient catalog))
    (calls.filterMap (g.warning? settings.lenient catalog)) (calls.filterMap (g.issue? settings.strict catalog)) := by
  induction calls with
  | nil => exact .done
  | cons k calls ih =>
    cases hl : g.lookup catalog k.position k.dependency with
    | found j origin => simpa [issue?, warning?, hl] using Raised.silent ih
    | satisfied => simpa [issue?, warning?, hl] using Raised.silent ih
    | ambiguous candidates => simpa [issue?, warning?, hl] using Raised.issue (.inr ⟨candidates, rfl⟩) ih
    | missing =>
      by_cases hi : catalog.isInterface k.dependency = true
      · simpa [issue?, warning?, hl, hi] using Raised.issue (.inl rfl) ih
      · simpa [issue?, warning?, hl, hi, Settings.lenient, Settings.strict] using Raised.ignored ih

/-- strict calls never warn -/
theorem strict_warnings (calls : List Call) : calls.filterMap (g.warning? settings.strict catalog) = [] := by
  rw [List.filterMap_eq_nil_iff]
  intro k _
  unfold warning?
  split
  · rfl
  · rfl

end DependencyGraph

/-! ## Whole runs -/

/-- what strictness does to the graph of a context: it raises warnings to issues, and leaves the rest as it is -/
structure Tightens (context : Context) (lenient strict : DependencyGraph) : Prop where
  nodes : strict.nodes = lenient.nodes
  edges : strict.edges = lenient.edges
  links : strict.links = lenient.links
  order : strict.order = lenient.order
  raised : DependencyGraph.Raised context.target context.calls lenient.issues lenient.warnings strict.issues
  unwarned : strict.warnings = []

theorem tightens_build (settings : Settings) (catalog : Catalog) (c : Context) :
    Tightens c (.build settings.lenient catalog c) (.build settings.strict catalog c) := by
  have hsame := DependencyGraph.sameLinks_build settings.lenient settings.strict catalog c
  have hlenient := DependencyGraph.build_entered settings.lenient catalog c
  have hstrict := DependencyGraph.build_entered settings.strict catalog c
  refine ⟨hsame.nodes, hsame.edges, hsame.links, hsame.order, ?_, ?_⟩
  · rw [hlenient.issues, hlenient.warnings, hstrict.issues]
    exact DependencyGraph.raised_calls (DependencyGraph.bare c) settings catalog c.calls
  · rw [hstrict.warnings]
    exact DependencyGraph.strict_warnings (DependencyGraph.bare c) settings catalog c.calls

/-- a strict run has the plan of the lenient one if the plan ignores nothing -/
theorem Tightens.resolve_eq_ok_iff {settings : Settings} {catalog : Catalog} {c : Context}
    (h : Tightens c (.build settings.lenient catalog c) (.build settings.strict catalog c))
    (hwarnings : ∀ w ∈ c.warnings, ∃ m s, w = .unusedSuppression m s) (plan : Plan) :
    c.resolve settings.strict catalog = .ok plan ↔
      c.resolve settings.lenient catalog = .ok plan ∧ ∀ m d, .ignoredDependency m d ∉ plan.warnings := by
  rw [Context.resolve_eq_ok_iff, Context.resolve_eq_ok_iff, h.raised.strict_eq_nil_iff, h.order, h.unwarned]
  constructor
  · rintro ⟨hproblems, ⟨hissues, hnone⟩, order, horder, rfl⟩
    refine ⟨⟨hproblems, hissues, order, horder, by rw [hnone]⟩, fun m d hmem => ?_⟩
    have hmem : .ignoredDependency m d ∈ c.warnings ++ [] := hmem
    obtain ⟨_, _, hw⟩ := hwarnings _ (List.append_nil _ ▸ hmem)
    cases hw
  · rintro ⟨⟨hproblems, hissues, order, horder, rfl⟩, hnot⟩
    have hnone : (DependencyGraph.build settings.lenient catalog c).warnings = [] := by
      by_contra hne
      obtain ⟨w, hw⟩ := List.exists_mem_of_ne_nil _ hne
      obtain ⟨m, d, rfl⟩ := h.raised.warning_eq w hw
      exact hnot m d (List.mem_append_right _ hw)
    exact ⟨hproblems, ⟨hissues, hnone⟩, order, horder, by rw [hnone]⟩

/-- **Strictness only turns ignored dependencies into errors.** The nodes, the edges, the order and the cycle that is reported
are the same under both settings. The strict issues are the lenient ones, with one more for each dependency that the lenient
run ignores, where that comes in the order of the mixins and their dependencies; all that is reported before and after them is
the same. So the strict run has a plan exactly if the lenient one has it, and it ignores nothing. -/
theorem strict_only_raises_ignored (settings : Settings) (catalog : Catalog) (target : TypeRef) (facts : List Fact) :
    Tightens (.build settings target facts)
      (.build settings.lenient catalog (.build settings.lenient target facts))
      (.build settings.strict catalog (.build settings.strict target facts)) ∧
    (∃ before after, ∀ problems,
      (resolve settings.lenient catalog target facts = .error problems ↔ problems ≠ [] ∧ problems =
        before ++ (DependencyGraph.build settings.lenient catalog (.build settings.lenient target facts)).issues ++ after) ∧
      (resolve settings.strict catalog target facts = .error problems ↔ problems ≠ [] ∧ problems =
        before ++ (DependencyGraph.build settings.strict catalog (.build settings.strict target facts)).issues ++ after)) ∧
    ∀ plan, resolve settings.strict catalog target facts = .ok plan ↔
      resolve settings.lenient catalog target facts = .ok plan ∧ ∀ m d, .ignoredDependency m d ∉ plan.warnings := by
  have htightens := tightens_build settings catalog (.build settings target facts)
  refine ⟨htightens, ?_, htightens.resolve_eq_ok_iff (Context.build_warnings settings target facts)⟩
  have hcycle := (DependencyGraph.sameLinks_build settings.lenient settings.strict catalog
    (.build settings target facts)).cycleProblem (Context.build settings target facts).target
  refine ⟨(Context.build settings target facts).problems catalog, ((DependencyGraph.build settings.lenient catalog
    (.build settings target facts)).cycleProblem (Context.build settings target facts).target).toList, fun problems => ?_⟩
  constructor
  · rw [resolve, Context.resolve_eq_error_iff, Context.findings_problems]
    rfl
  · rw [resolve, Context.resolve_eq_error_iff, Context.findings_problems, ← hcycle]
    rfl

/-- a dependency on an absent class is ignored or unsatisfied, and one on an interface is unsatisfied anyway -/
example : let catalog : Catalog := .ofList [.ofInterface "ILog"]
    let facts : List Fact := [.mixin { mixin := ⟨"Retry", []⟩, dependencies := [⟨"Audit", []⟩, ⟨"ILog", []⟩] }]
    let graph (s : Settings) : DependencyGraph := .build s catalog (.build s ⟨"T", []⟩ facts)
    (graph (Settings.lenient {})).issues.length = 1 ∧ (graph (Settings.lenient {})).warnings.length = 1 ∧
      (graph (Settings.strict {})).issues.length = 2 := by decide

end MixinPlanner
