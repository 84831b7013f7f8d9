/-
Links of a graph, and what building a graph from a context enters.

A graph is made in two ways only (`Built`): from pairs of positions, or from a context. Either way it keeps `Linked`: a
link joins two different positions of nodes, and no two links join the same two.

Building from a context makes one call for each dependency of each mixin (`Context.calls`), in order. What a call finds
depends on the nodes and the target alone, which no call changes, so the whole run has a closed form (`enterAll_spec`):
the links are those that some call finds, the issues and warnings are those of the calls, one after the other.
-/
import Mathlib.Tactic
import MixinPlanner.Dependency.Graph

namespace MixinPlanner

/-- nothing is lost where there is a value for every element -/
theorem map_some_filterMap {α β : Type*} {f : α → Option β} {l : List α} (h : ∀ a ∈ l, (f a).isSome) :
    (l.filterMap f).map some = l.map f := by
  induction l with
  | nil => rfl
  | cons a l ih =>
    obtain ⟨ha, hl⟩ := List.forall_mem_cons.1 h
    obtain ⟨b, hb⟩ := Option.isSome_iff_exists.1 ha
    rw [List.filterMap_cons_some hb, List.map_cons, List.map_cons, ih hl, hb]

namespace DependencyGraph

/-! ## Links -/

/-- the first of two positions depends on the second -/
def Leads (g : DependencyGraph) (i j : ℕ) : Prop := g.hasLink i j = true

instance (g : DependencyGraph) : DecidableRel g.Leads := fun i j => inferInstanceAs (Decidable (g.hasLink i j = true))

theorem leads_iff (g : DependencyGraph) (i j : ℕ) :
    g.Leads i j ↔ ∃ l ∈ g.links, l.dependent = i ∧ l.dependency = j := by
  simp [Leads, hasLink]

theorem mem_successors (g : DependencyGraph) (i j : ℕ) : j ∈ g.successors i ↔ g.Leads i j := by
  simp [successors, leads_iff, and_assoc]

/-- what every graph keeps -/
structure Linked (g : DependencyGraph) : Prop where
  /-- a link joins two different positions of nodes -/
  proper : ∀ l ∈ g.links, l.dependent ≠ l.dependency ∧ l.dependent < g.size ∧ l.dependency < g.size
  /-- no two links join the same two positions -/
  once : g.links.Pairwise fun l l' => ¬ (l.dependent = l'.dependent ∧ l.dependency = l'.dependency)

theorem Linked.leads {g : DependencyGraph} (h : g.Linked) {i j : ℕ} (hij : g.Leads i j) :
    i ≠ j ∧ i < g.size ∧ j < g.size := by
  obtain ⟨l, hl, rfl, rfl⟩ := (leads_iff g i j).1 hij
  exact h.proper l hl

theorem Linked.successors_nodup {g : DependencyGraph} (h : g.Linked) (i : ℕ) : (g.successors i).Nodup := by
  unfold successors List.Nodup
  rw [List.pairwise_map, List.pairwise_filter]
  refine h.once.imp fun hne hl hl' he => hne ⟨?_, he⟩
  rw [eq_of_beq hl, eq_of_beq hl']

theorem linked_bare (target : TypeRef) (nodes : List TypeRef) : Linked { target, nodes } := ⟨by simp, .nil⟩

/-- a link enters only between two different positions of nodes -/
def Admits (g : DependencyGraph) (i j : ℕ) : Prop := i ≠ j ∧ i < g.size ∧ j < g.size

/-- what linking leaves as it was -/
structure SameNodes (g g' : DependencyGraph) : Prop where
  target : g'.target = g.target
  nodes : g'.nodes = g.nodes

theorem SameNodes.refl (g : DependencyGraph) : SameNodes g g := ⟨rfl, rfl⟩

theorem SameNodes.trans {g g' g'' : DependencyGraph} (h : SameNodes g g') (h' : SameNodes g' g'') : SameNodes g g'' :=
  ⟨h'.target.trans h.target, h'.nodes.trans h.nodes⟩

theorem SameNodes.admits {g g' : DependencyGraph} (h : SameNodes g g') (i j : ℕ) : g'.Admits i j ↔ g.Admits i j := by
  simp [Admits, size, h.nodes]

theorem link_same (g : DependencyGraph) (l : Link) : SameNodes g (g.link l) := by
  unfold link
  split_ifs
  · exact .refl g
  · exact ⟨rfl, rfl⟩

@[simp]
theorem link_issues (g : DependencyGraph) (l : Link) : (g.link l).issues = g.issues := by
  unfold link; split_ifs <;> rfl

@[simp]
theorem link_warnings (g : DependencyGraph) (l : Link) : (g.link l).warnings = g.warnings := by
  unfold link; split_ifs <;> rfl

/-- linking adds the link between its two positions, and no other -/
theorem link_leads (g : DependencyGraph) (l : Link) (i j : ℕ) :
    (g.link l).Leads i j ↔ g.Leads i j ∨ (l.dependent = i ∧ l.dependency = j ∧ g.Admits i j) := by
  unfold link
  split_ifs with h
  · refine ⟨.inl, ?_⟩
    intro hlink
    rcases hlink with hij | ⟨rfl, rfl, hne, hi, hj⟩
    · exact hij
    · rcases h with h | h | h | h
      · exact absurd h hne
      · omega
      · omega
      · exact h
  · simp only [not_or, not_le] at h
    simp only [leads_iff, List.mem_append, List.mem_singleton, or_and_right, exists_or, exists_eq_left]
    refine or_congr_right ⟨?_, fun ⟨hi, hj, _⟩ => ⟨hi, hj⟩⟩
    rintro ⟨rfl, rfl⟩
    exact ⟨rfl, rfl, h.1, h.2.1, h.2.2.1⟩

theorem link_linked (g : DependencyGraph) (l : Link) (hg : g.Linked) : (g.link l).Linked := by
  unfold link
  split_ifs with h
  · exact hg
  · simp only [not_or, not_le] at h
    obtain ⟨hne, hi, hj, hnew⟩ := h
    refine ⟨fun l' hl' => ?_, ?_⟩
    · rcases List.mem_append.1 hl' with hl' | hl'
      · exact hg.proper l' hl'
      · rw [List.mem_singleton.1 hl']; exact ⟨hne, hi, hj⟩
    · refine List.pairwise_append.2 ⟨hg.once, List.pairwise_singleton _ _, fun a ha b hb hab => ?_⟩
      rw [List.mem_singleton.1 hb] at hab
      exact hnew ((leads_iff g _ _).2 ⟨a, ha, hab⟩)

/-! ## From pairs -/

theorem linked_ofPairs (target : TypeRef) (nodes : List TypeRef) (pairs : List (ℕ × ℕ)) :
    (ofPairs target nodes pairs).Linked := by
  unfold ofPairs
  generalize hg : ({ target, nodes } : DependencyGraph) = g
  have h : g.Linked := hg ▸ linked_bare target nodes
  clear hg
  induction pairs generalizing g with
  | nil => exact h
  | cons p pairs ih => exact ih _ (link_linked g _ h)

end DependencyGraph

/-! ## From a context -/

/-- one dependency of one mixin: what is looked up while a graph is built -/
structure Call where
  mixin : TypeRef
  position : ℕ
  dependency : TypeRef

/-- the calls for a context: every dependency of every mixin, in order -/
def Context.calls (c : Context) : List Call :=
  c.mixins.zipIdx.flatMap fun e => e.1.fact.dependencies.map fun d => ⟨e.1.mixin, e.2, d⟩

theorem Context.mem_calls (c : Context) (k : Call) :
    k ∈ c.calls ↔ ∃ e, c.mixins[k.position]? = some e ∧ e.mixin = k.mixin ∧ k.dependency ∈ e.fact.dependencies := by
  simp only [Context.calls, List.mem_flatMap, List.mem_map, Prod.exists, List.mem_zipIdx_iff_getElem?]
  constructor
  · rintro ⟨e, i, he, d, hd, rfl⟩
    exact ⟨e, he, rfl, hd⟩
  · intro ⟨e, he, hm, hd⟩
    exact ⟨e, k.position, he, k.dependency, hd, by rw [hm]⟩

namespace DependencyGraph

theorem lookup_same {g g' : DependencyGraph} (h : SameNodes g g') (catalog : Catalog) (i : ℕ) (d : TypeRef) :
    g'.lookup catalog i d = g.lookup catalog i d := by
  simp only [lookup, position?, others, h.nodes, h.target]

/-- the issue that a call makes -/
def issue? (g : DependencyGraph) (settings : Settings) (catalog : Catalog) (k : Call) : Option Problem :=
  match g.lookup catalog k.position k.dependency with
  | .ambiguous candidates => some (.ambiguousDependency g.target k.mixin k.dependency candidates)
  | .missing =>
    if settings.strictDependencies || catalog.isInterface k.dependency then
      some (.unsatisfiedDependency g.target k.mixin k.dependency)
    else none
  | _ => none

/-- the warning that a call makes -/
def warning? (g : DependencyGraph) (settings : Settings) (catalog : Catalog) (k : Call) : Option Warning :=
  match g.lookup catalog k.position k.dependency with
  | .missing =>
    if settings.strictDependencies || catalog.isInterface k.dependency then none
    else some (.ignoredDependency k.mixin k.dependency)
  | _ => none

/-- the call finds the position that its dependency stands for -/
def Finds (g : DependencyGraph) (catalog : Catalog) (k : Call) (j : ℕ) : Prop :=
  ∃ origin, g.lookup catalog k.position k.dependency = .found j origin

/-- one call: its dependency entered -/
def call (settings : Settings) (catalog : Catalog) (g : DependencyGraph) (k : Call) : DependencyGraph :=
  g.enter settings catalog k.mixin k.position k.dependency

/-- one call keeps the nodes, and adds exactly what it finds -/
structure Entered (settings : Settings) (catalog : Catalog) (g : DependencyGraph) (calls : List Call)
    (g' : DependencyGraph) : Prop where
  same : SameNodes g g'
  leads : ∀ i j, g'.Leads i j ↔ g.Leads i j ∨ ∃ k ∈ calls, k.position = i ∧ g.Finds catalog k j ∧ g.Admits i j
  issues : g'.issues = g.issues ++ calls.filterMap (g.issue? settings catalog)
  warnings : g'.warnings = g.warnings ++ calls.filterMap (g.warning? settings catalog)

theorem call_entered (settings : Settings) (catalog : Catalog) (g : DependencyGraph) (k : Call) :
    Entered settings catalog g [k] (g.call settings catalog k) := by
  unfold call enter
  cases hl : g.lookup catalog k.position k.dependency with
  | found j origin =>
    refine ⟨link_same g _, fun i j' => ?_, by simp [issue?, hl], by simp [warning?, hl]⟩
    simp only [link_leads, List.mem_singleton, exists_eq_left, Finds, hl, Lookup.found.injEq, exists_and_left,
      exists_eq', and_true]
  | satisfied =>
    exact ⟨.refl g, by simp [Finds, hl], by simp [issue?, hl], by simp [warning?, hl]⟩
  | ambiguous candidates =>
    exact ⟨⟨rfl, rfl⟩, by simp [Finds, hl, leads_iff], by simp [issue?, hl], by simp [warning?, hl]⟩
  | missing =>
    simp only
    split_ifs with hs
    · exact ⟨⟨rfl, rfl⟩, by simp [Finds, hl, leads_iff], by simp [issue?, hl, hs], by simp [warning?, hl, hs]⟩
    · exact ⟨⟨rfl, rfl⟩, by simp [Finds, hl, leads_iff], by simp [issue?, hl, hs], by simp [warning?, hl, hs]⟩

theorem Entered.cons {settings : Settings} {catalog : Catalog} {g g' g'' : DependencyGraph} {k : Call}
    {calls : List Call} (h : Entered settings catalog g [k] g') (h' : Entered settings catalog g' calls g'') :
    Entered settings catalog g (k :: calls) g'' := by
  have hissue : g'.issue? settings catalog = g.issue? settings catalog := by
    funext k'; simp only [issue?, lookup_same h.same, h.same.target]
  have hwarning : g'.warning? settings catalog = g.warning? settings catalog := by
    funext k'; simp only [warning?, lookup_same h.same]
  refine ⟨h.same.trans h'.same, fun i j => ?_, ?_, ?_⟩
  · rw [h'.leads, h.leads]
    simp only [Finds, lookup_same h.same, h.same.admits, List.mem_cons, List.not_mem_nil, or_false, or_and_right,
      exists_or, or_assoc]
  · rw [h'.issues, h.issues, hissue, List.append_assoc, ← List.filterMap_append, List.singleton_append]
  · rw [h'.warnings, h.warnings, hwarning, List.append_assoc, ← List.filterMap_append, List.singleton_append]

/-- **What a run of calls enters.** The links are those that some call finds, and the issues and warnings are those of
the calls in order. -/
theorem enterAll_spec (settings : Settings) (catalog : Catalog) (g : DependencyGraph) (calls : List Call) :
    Entered settings catalog g calls (calls.foldl (call settings catalog) g) := by
  induction calls generalizing g with
  | nil => exact ⟨.refl g, by simp, by simp, by simp⟩
  | cons k calls ih => exact (call_entered settings catalog g k).cons (ih _)

/-- the graph of a context before anything is entered -/
def bare (context : Context) : DependencyGraph :=
  { target := context.target, nodes := context.mixins.map MixinEntry.mixin }

theorem build_eq_foldl_calls (settings : Settings) (catalog : Catalog) (context : Context) :
    build settings catalog context = context.calls.foldl (call settings catalog) (bare context) := by
  simp only [build, Context.calls, List.foldl_flatMap, List.foldl_map]
  rfl

theorem build_entered (settings : Settings) (catalog : Catalog) (context : Context) :
    Entered settings catalog (bare context) context.calls (build settings catalog context) :=
  build_eq_foldl_calls settings catalog context ▸ enterAll_spec settings catalog (bare context) context.calls

theorem call_linked (settings : Settings) (catalog : Catalog) (g : DependencyGraph) (k : Call) (h : g.Linked) :
    (g.call settings catalog k).Linked := by
  unfold call enter
  split
  · exact link_linked g _ h
  · exact h
  · exact ⟨h.proper, h.once⟩
  · split_ifs
    · exact ⟨h.proper, h.once⟩
    · exact ⟨h.proper, h.once⟩

theorem linked_build (settings : Settings) (catalog : Catalog) (context : Context) :
    (build settings catalog context).Linked := by
  rw [build_eq_foldl_calls]
  have h : (bare context).Linked := linked_bare _ _
  generalize bare context = g at h
  induction context.calls generalizing g with
  | nil => exact h
  | cons k calls ih => exact ih _ (call_linked settings catalog g k h)

/-! ## Both ways -/

/-- a graph that was made from pairs of positions or from a context -/
inductive Built : DependencyGraph → Prop
  | ofPairs (target : TypeRef) (nodes : List TypeRef) (pairs : List (ℕ × ℕ)) : Built (ofPairs target nodes pairs)
  | build (settings : Settings) (catalog : Catalog) (context : Context) : Built (build settings catalog context)

theorem Built.linked {g : DependencyGraph} (h : g.Built) : g.Linked := by
  cases h with
  | ofPairs target nodes pairs => exact linked_ofPairs target nodes pairs
  | build settings catalog context => exact linked_build settings catalog context

end DependencyGraph

end MixinPlanner
