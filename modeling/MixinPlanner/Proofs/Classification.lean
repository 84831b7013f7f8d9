/-
What becomes of every dependency of every mixin.

`Becomes` has the rules: a dependency is an edge, it is provided by the target and leaves no trace, or it is reported as an
issue or a warning. One rule applies to each dependency, and it says all (`becomes_iff`).

- `Becomes.agrees`: what is looked up for a dependency is what its rule says;
- `Agrees.found_edge`, `found_other`: the link that a call finds is the edge that the rule gives, and joins two mixins;
- `build_edges`: so the edges are those that the rules give, each where it is first given;
- `dependencies_classified`: the graph of a context is what the rules make of its dependencies, in order.
-/
import MixinPlanner.Proofs.Rejection
import MixinPlanner.Proofs.Representation

namespace MixinPlanner

/-! ## The rules -/

/-- what becomes of a dependency -/
inductive Fate where
  | edge (e : DependencyGraph.Edge)
  | silent
  | issue (p : Problem)
  | warning (w : Warning)

namespace Fate

def edge? : Fate → Option DependencyGraph.Edge
  | edge e => some e
  | _ => none

theorem edge?_eq_some {x : Fate} {e : DependencyGraph.Edge} : x.edge? = some e ↔ x = edge e := by
  cases x <;> simp [edge?]

def issue? : Fate → Option Problem
  | issue p => some p
  | _ => none

def warning? : Fate → Option Warning
  | warning w => some w
  | _ => none

end Fate

namespace DependencyGraph

/-- two edges join the same mixins, wherever they come from -/
def Edge.sameEnds (e e' : Edge) : Bool := e'.dependent == e.dependent && e'.dependency == e.dependency

section Rules

variable (settings : Settings) (catalog : Catalog) (c : Context)

/-- the rules for a dependency `d` of a mixin `m` -/
inductive Becomes (m d : TypeRef) : Fate → Prop
  /-- the dependency is itself a mixin of the context -/
  | present (mem : d ∈ c.mixinTypes) : Becomes m d (.edge ⟨m, d, .explicit⟩)
  /-- it stands for the one other mixin that implements it, or applies it -/
  | sole {n : TypeRef} (absent : d ∉ c.mixinTypes) (sole : candidates catalog c m d = [n]) :
      Becomes m d (.edge ⟨m, n, standsBy catalog d⟩)
  /-- it may stand for several -/
  | several (absent : d ∉ c.mixinTypes) (several : 2 ≤ (candidates catalog c m d).length) :
      Becomes m d (.issue (.ambiguousDependency c.target m d (candidates catalog c m d)))
  /-- it is an interface that no other mixin implements, and the target is or implements it -/
  | provided (absent : d ∉ c.mixinTypes) (none : candidates catalog c m d = []) (interface : catalog.isInterface d = true)
      (provides : catalog.provides c.target d = true) : Becomes m d .silent
  /-- it is an interface that nothing provides, or it is missing where dependencies are strict -/
  | unsatisfied (absent : d ∉ c.mixinTypes) (none : candidates catalog c m d = [])
      (needed : if catalog.isInterface d then ¬ catalog.provides c.target d = true
        else settings.strictDependencies = true) :
      Becomes m d (.issue (.unsatisfiedDependency c.target m d))
  /-- it is missing where dependencies are lenient -/
  | ignored (absent : d ∉ c.mixinTypes) (none : candidates catalog c m d = []) (known : ¬ catalog.isInterface d = true)
      (lenient : settings.strictDependencies = false) : Becomes m d (.warning (.ignoredDependency m d))

/-- the rules carried out -/
def fate (m d : TypeRef) : Fate :=
  if d ∈ c.mixinTypes then .edge ⟨m, d, .explicit⟩
  else
    match candidates catalog c m d with
    | [] =>
      if catalog.isInterface d && catalog.provides c.target d then .silent
      else if settings.strictDependencies || catalog.isInterface d then .issue (.unsatisfiedDependency c.target m d)
      else .warning (.ignoredDependency m d)
    | [n] => .edge ⟨m, n, standsBy catalog d⟩
    | several => .issue (.ambiguousDependency c.target m d several)

variable {settings catalog c}

theorem Becomes.eq_fate {m d : TypeRef} {x : Fate} (h : Becomes settings catalog c m d x) :
    x = fate settings catalog c m d := by
  cases h with
  | present mem => rw [fate, if_pos mem]
  | sole absent sole => rw [fate, if_neg absent, sole]
  | several absent several =>
    rw [fate, if_neg absent]
    match hc : candidates catalog c m d with
    | [] => rw [hc] at several; cases several
    | [n] => rw [hc] at several; simp at several
    | n :: n' :: rest => rfl
  | provided absent none interface provides => simp [fate, absent, none, interface, provides]
  | unsatisfied absent none needed =>
    by_cases hi : catalog.isInterface d = true
    · rw [if_pos hi] at needed
      simp [fate, absent, none, hi, needed]
    · rw [if_neg hi] at needed
      simp [fate, absent, none, hi, needed]
  | ignored absent none known lenient => simp [fate, absent, none, known, lenient]

theorem becomes_fate (m d : TypeRef) : Becomes settings catalog c m d (fate settings catalog c m d) := by
  by_cases hd : d ∈ c.mixinTypes
  · rw [fate, if_pos hd]
    exact .present hd
  · rw [fate, if_neg hd]
    match hc : candidates catalog c m d with
    | [n] => exact .sole hd hc
    | n :: n' :: rest =>
      have hlen : 2 ≤ (candidates catalog c m d).length := by simp [hc]
      have hseveral : Becomes settings catalog c m d _ := .several hd hlen
      rwa [hc] at hseveral
    | [] =>
      simp only [Bool.and_eq_true, Bool.or_eq_true]
      split_ifs with hprovided hneeded
      · exact .provided hd hc hprovided.1 hprovided.2
      · refine .unsatisfied hd hc ?_
        split_ifs with hi
        · exact fun hp => hprovided ⟨hi, hp⟩
        · exact hneeded.resolve_right hi
      · obtain ⟨hlenient, hi⟩ := not_or.1 hneeded
        exact .ignored hd hc hi (by simpa using hlenient)

/-- just one rule applies -/
theorem becomes_iff (m d : TypeRef) (x : Fate) :
    Becomes settings catalog c m d x ↔ x = fate settings catalog c m d :=
  ⟨Becomes.eq_fate, fun h => h ▸ becomes_fate m d⟩

/-- an edge leads from the mixin to another one -/
theorem Becomes.leads {m d : TypeRef} {e : Edge} (h : Becomes settings catalog c m d (.edge e)) (hne : m ≠ d) :
    e.dependent = m ∧ e.dependent ≠ e.dependency := by
  cases h with
  | present mem => exact ⟨rfl, hne⟩
  | sole absent sole =>
    have hmem : _ ∈ candidates catalog c m d := sole ▸ List.mem_singleton_self _
    exact ⟨rfl, ((mem_candidates ..).1 hmem).other.symm⟩

end Rules

/-! ## What is looked up -/

/-- what is looked up for a call comes to a fate -/
inductive Agrees (settings : Settings) (catalog : Catalog) (c : Context) (k : Call) : Lookup → Fate → Prop
  | found {j : ℕ} {n : TypeRef} (origin : LinkOrigin) (node : c.mixinTypes[j]? = some n) :
      Agrees settings catalog c k (.found j origin) (.edge ⟨k.mixin, n, origin⟩)
  | satisfied : Agrees settings catalog c k .satisfied .silent
  | ambiguous (candidates : List TypeRef) : Agrees settings catalog c k (.ambiguous candidates)
      (.issue (.ambiguousDependency c.target k.mixin k.dependency candidates))
  | unsatisfied (needed : (settings.strictDependencies || catalog.isInterface k.dependency) = true) :
      Agrees settings catalog c k .missing (.issue (.unsatisfiedDependency c.target k.mixin k.dependency))
  | ignored (allowed : (settings.strictDependencies || catalog.isInterface k.dependency) = false) :
      Agrees settings catalog c k .missing (.warning (.ignoredDependency k.mixin k.dependency))

variable {settings : Settings} {catalog : Catalog} {c : Context}

/-- the rule for a dependency says what is looked up for it -/
theorem Becomes.agrees (hn : c.mixinTypes.Nodup) {k : Call} (hk : k ∈ c.calls) {x : Fate}
    (h : Becomes settings catalog c k.mixin k.dependency x) :
    Agrees settings catalog c k ((bare c).lookup catalog k.position k.dependency) x := by
  have hothers : ((bare c).others k.position (stands catalog k.dependency)).map Prod.fst =
      candidates catalog c k.mixin k.dependency := others_candidates hn hk
  cases h with
  | present mem =>
    obtain ⟨j, hj, hl⟩ := lookup_of_mem (g := bare c) catalog k.position mem
    rw [hl]
    exact .found .explicit hj
  | sole absent sole =>
    rw [sole, List.map_eq_singleton_iff] at hothers
    obtain ⟨⟨n, j⟩, hothers, rfl⟩ := hothers
    rw [lookup_eq_choose catalog k.position absent, hothers]
    have hj : ((n, j) : TypeRef × ℕ) ∈ (bare c).others k.position (stands catalog k.dependency) :=
      hothers ▸ List.mem_singleton_self _
    exact .found (standsBy catalog k.dependency) ((mem_others ..).1 hj).1
  | several absent several =>
    rw [lookup_eq_choose catalog k.position absent]
    rw [← hothers] at several ⊢
    match ho : (bare c).others k.position (stands catalog k.dependency) with
    | [] => simp [ho] at several
    | [_] => simp [ho] at several
    | x :: y :: rest => exact .ambiguous _
  | provided absent none interface provides =>
    rw [none, List.map_eq_nil_iff] at hothers
    rw [lookup_eq_choose catalog k.position absent, hothers, if_pos]
    · exact .satisfied
    · exact Bool.and_eq_true_iff.2 ⟨interface, provides⟩
  | unsatisfied absent none needed =>
    rw [none, List.map_eq_nil_iff] at hothers
    rw [lookup_eq_choose catalog k.position absent, hothers, if_neg]
    · refine .unsatisfied (Bool.or_eq_true_iff.2 ?_)
      split_ifs at needed with hi
      · exact .inr hi
      · exact .inl needed
    · intro hprovided
      obtain ⟨hi, hp⟩ := Bool.and_eq_true_iff.1 hprovided
      rw [if_pos hi] at needed
      exact needed hp
  | ignored absent none known lenient =>
    rw [none, List.map_eq_nil_iff] at hothers
    rw [lookup_eq_choose catalog k.position absent, hothers, if_neg]
    · exact .ignored (by simp [known, lenient])
    · exact fun hprovided => known (Bool.and_eq_true_iff.1 hprovided).1

/-- what a call reports is what its dependency comes to -/
theorem Agrees.reports {k : Call} {x : Fate}
    (h : Agrees settings catalog c k ((bare c).lookup catalog k.position k.dependency) x) :
    (bare c).issue? settings catalog k = x.issue? ∧ (bare c).warning? settings catalog k = x.warning? := by
  unfold issue? warning?
  generalize (bare c).lookup catalog k.position k.dependency = found at h ⊢
  cases h with
  | found origin node => exact ⟨rfl, rfl⟩
  | satisfied => exact ⟨rfl, rfl⟩
  | ambiguous candidates => exact ⟨rfl, rfl⟩
  | unsatisfied needed => exact ⟨if_pos needed, if_pos needed⟩
  | ignored allowed =>
    have hnot := Bool.eq_false_iff.1 allowed
    exact ⟨if_neg hnot, if_neg hnot⟩

/-! ## Edges -/

/-- what a call finds is the edge that its dependency comes to -/
theorem Agrees.found_edge {k : Call} (hk : k ∈ c.calls) {x : Fate}
    (h : Agrees settings catalog c k ((bare c).lookup catalog k.position k.dependency) x) :
    ((bare c).found? catalog k).bind (bare c).edgeOf? = x.edge? := by
  unfold found?
  generalize (bare c).lookup catalog k.position k.dependency = found at h ⊢
  cases h with
  | found origin node => exact (edgeOf?_eq_some ..).2 ⟨caller_of_mem hk, node, rfl⟩
  | satisfied => rfl
  | ambiguous candidates => rfl
  | unsatisfied needed => rfl
  | ignored allowed => rfl

section Ends

variable {g : DependencyGraph} {l l' : Link} {e e' : Edge}

/-- a link between two different mixins is admitted -/
theorem admits_of_edge (he : g.edgeOf? l = some e) (hne : e.dependent ≠ e.dependency) :
    g.Admits l.dependent l.dependency := by
  obtain ⟨hm, hd, -⟩ := (edgeOf?_eq_some ..).1 he
  refine ⟨?_, (List.getElem?_eq_some_iff.1 hm).1, (List.getElem?_eq_some_iff.1 hd).1⟩
  intro heq
  rw [heq, hd] at hm
  exact hne (Option.some.inj hm).symm

/-- where no mixin is repeated, positions are as different as the mixins there -/
theorem eq_position_iff (hn : g.nodes.Nodup) {i j : ℕ} {m n : TypeRef} (hm : g.nodes[i]? = some m)
    (hm' : g.nodes[j]? = some n) : i = j ↔ m = n := by
  rw [← List.getElem?_inj (List.getElem?_eq_some_iff.1 hm).1 hn, hm, hm', Option.some.injEq]

theorem sameEnds_eq (hn : g.nodes.Nodup) (he : g.edgeOf? l = some e) (he' : g.edgeOf? l' = some e') :
    l.sameEnds l' = e.sameEnds e' := by
  obtain ⟨hm, hd, -⟩ := (edgeOf?_eq_some ..).1 he
  obtain ⟨hm', hd', -⟩ := (edgeOf?_eq_some ..).1 he'
  rw [Bool.eq_iff_iff, Link.sameEnds_iff, eq_position_iff hn hm' hm, eq_position_iff hn hd' hd, Edge.sameEnds,
    Bool.and_eq_true, beq_iff_eq, beq_iff_eq]

end Ends

/-- no mixin of finished facts depends on itself -/
theorem mixin_ne_dependency (hw : ∀ e ∈ c.mixins, e.fact.WellFormed) {k : Call} (hk : k ∈ c.calls) :
    k.mixin ≠ k.dependency := by
  intro heq
  obtain ⟨e, he, hm, hd⟩ := (c.mem_calls k).1 hk
  rw [← heq, ← hm] at hd
  exact (hw e (List.mem_of_getElem? he)).not_self hd

/-- what a call finds is another mixin -/
theorem found_other (hn : c.mixinTypes.Nodup) {k : Call} (hk : k ∈ c.calls) (hne : k.mixin ≠ k.dependency) {l : Link}
    (hl : (bare c).found? catalog k = some l) : ∃ e, (bare c).edgeOf? l = some e ∧ e.dependent ≠ e.dependency := by
  have hrule : Becomes {} catalog c k.mixin k.dependency (fate {} catalog c k.mixin k.dependency) :=
    becomes_fate k.mixin k.dependency
  have hagrees := hrule.agrees hn hk
  rw [found?] at hl
  generalize fate {} catalog c k.mixin k.dependency = x at hrule hagrees
  generalize (bare c).lookup catalog k.position k.dependency = found at hl hagrees
  cases hagrees with
  | found origin node =>
    cases hl
    exact ⟨⟨k.mixin, _, origin⟩, (edgeOf?_eq_some ..).2 ⟨caller_of_mem hk, node, rfl⟩, (hrule.leads hne).2⟩
  | satisfied => cases hl
  | ambiguous candidates => cases hl
  | unsatisfied needed => cases hl
  | ignored allowed => cases hl

/-- **The edges of a context.** They are those that the rules give, each where it is first given. -/
theorem build_edges (hn : c.mixinTypes.Nodup) (hself : ∀ k ∈ c.calls, k.mixin ≠ k.dependency) :
    (build settings catalog c).edges =
      (c.calls.filterMap fun k => (fate settings catalog c k.mixin k.dependency).edge?).eraseDupsBy Edge.sameEnds := by
  let given := c.calls.filterMap ((bare c).found? catalog)
  have hother : ∀ l ∈ given, ∃ e, (bare c).edgeOf? l = some e ∧ e.dependent ≠ e.dependency := by
    intro l hl
    obtain ⟨k, hk, hl⟩ := List.mem_filterMap.1 hl
    exact found_other hn hk (hself k hk) hl
  -- so linking refuses none of these but for being repeated
  have hkept : (bare c).kept given = given.eraseDupsBy Link.sameEnds := by
    rw [kept, List.filter_eq_self.2]
    intro l hl
    obtain ⟨e, he, hne⟩ := hother l hl
    exact decide_eq_true (admits_of_edge he hne)
  have hgiven : given.filterMap (bare c).edgeOf? =
      c.calls.filterMap fun k => (fate settings catalog c k.mixin k.dependency).edge? := by
    rw [List.filterMap_filterMap]
    exact List.filterMap_congr fun k hk => ((becomes_fate k.mixin k.dependency).agrees hn hk).found_edge hk
  calc (build settings catalog c).edges
      = (given.eraseDupsBy Link.sameEnds).filterMap (bare c).edgeOf? := by
        rw [edges_eq, links_build, hkept, (build_entered settings catalog c).same.edgeOf?]
    _ = (given.filterMap (bare c).edgeOf?).eraseDupsBy Edge.sameEnds := by
        refine filterMap_eraseDupsBy (fun l hl l' hl' _ => ?_) fun l _ l' _ e he e' he' => sameEnds_eq hn he he'
        obtain ⟨e, he, -⟩ := hother l hl
        obtain ⟨e', he', -⟩ := hother l' hl'
        rw [he, he']
        rfl
    _ = _ := by rw [hgiven]

/-! ## The graph of a context -/

/-- a graph is what the fates of a context's dependencies make of it, and the rules give those fates -/
structure Classifies (settings : Settings) (catalog : Catalog) (c : Context) (fate : Call → Fate)
    (g : DependencyGraph) : Prop where
  nodes : g.nodes = c.mixinTypes
  /-- just one rule applies to each dependency -/
  rule : ∀ k ∈ c.calls, ∀ x, Becomes settings catalog c k.mixin k.dependency x ↔ x = fate k
  /-- the edges are those that the rules give, each once, with the origin that it is first given -/
  edges : g.edges = (c.calls.filterMap fun k => (fate k).edge?).eraseDupsBy Edge.sameEnds
  /-- none of them is lost: each leads to another mixin, and the graph has it -/
  kept : ∀ k ∈ c.calls, ∀ e, fate k = .edge e →
    e.dependent = k.mixin ∧ e.dependent ≠ e.dependency ∧ g.hasEdge e.dependent e.dependency = true
  issues : g.issues = c.calls.filterMap fun k => (fate k).issue?
  warnings : g.warnings = c.calls.filterMap fun k => (fate k).warning?

theorem classifies_build (hn : c.mixinTypes.Nodup) (hw : ∀ e ∈ c.mixins, e.fact.WellFormed) :
    Classifies settings catalog c (fun k => fate settings catalog c k.mixin k.dependency)
      (build settings catalog c) := by
  have hrule (k : Call) : Becomes settings catalog c k.mixin k.dependency
      (fate settings catalog c k.mixin k.dependency) := becomes_fate k.mixin k.dependency
  have hself : ∀ k ∈ c.calls, k.mixin ≠ k.dependency := fun k hk => mixin_ne_dependency hw hk
  have hentered := build_entered settings catalog c
  have hedges : (build settings catalog c).edges = _ := build_edges hn hself
  refine ⟨build_nodes settings catalog c, fun k _ => becomes_iff k.mixin k.dependency, hedges, ?_, ?_, ?_⟩
  · intro k hk e he
    obtain ⟨hdependent, hne⟩ := (he ▸ hrule k).leads (hself k hk)
    refine ⟨hdependent, hne, ?_⟩
    rw [hasEdge, hedges]
    refine any_eraseDupsBy _ (fun e => by simp [Edge.sameEnds]) (List.mem_filterMap.2 ⟨k, hk, ?_⟩)
    rw [he]
    rfl
  · rw [hentered.issues]
    exact List.filterMap_congr fun k hk => ((hrule k).agrees hn hk).reports.1
  · rw [hentered.warnings]
    exact List.filterMap_congr fun k hk => ((hrule k).agrees hn hk).reports.2

/-- **Every dependency is classified once.** To each dependency of each mixin one rule applies, and the graph is what the
rules make of them, in the order of the mixins and of their dependencies: its issues and warnings are those that they give,
each at its place, and its edges are those that they give, each once. -/
theorem dependencies_classified (settings : Settings) (catalog : Catalog) (built : Settings) (target : TypeRef)
    (facts : List Fact) (hf : Finished facts) : ∃ fate, Classifies settings catalog (.build built target facts) fate
      (build settings catalog (.build built target facts)) := by
  refine ⟨_, classifies_build ?_ ?_⟩
  · exact Context.mixins_nodup built target facts
  · exact fun e he => Context.wellFormed_of_mem_build built target facts hf he

/-- a logger, and a shop that is itself a store -/
def shopCatalog : Catalog :=
  .ofList [.ofInterface "ILog", .ofInterface "IStore", .ofInterface "IClock",
    (TypeDecl.ofClass "FileLog").implementing ⟨"ILog", []⟩, (TypeDecl.ofClass "Shop").implementing ⟨"IStore", []⟩]

/-- a mixin with a dependency for each rule, and two for one edge -/
def shopFacts : List Fact :=
  let type (name : String) : TypeRef := ⟨name, []⟩
  [.mixin { mixin := type "FileLog" }, .mixin { mixin := ⟨"Box", [.closed (type "Cup")]⟩ },
   .mixin { mixin := ⟨"Box", [.closed (type "Jar")]⟩ },
   .mixin { mixin := type "Retry", dependencies := [type "ILog", type "FileLog", type "IStore", type "Box",
     type "IClock", type "Audit"] }]

theorem shopFacts_classified :
    let settings : Settings := { strictDependencies := false }
    let context : Context := .build settings ⟨"Shop", []⟩ shopFacts
    let graph : DependencyGraph := build settings shopCatalog context
    Finished shopFacts ∧ (∃ fate, Classifies settings shopCatalog context fate graph) ∧
      graph.edges = [⟨⟨"Retry", []⟩, ⟨"FileLog", []⟩, .interface⟩] ∧
      graph.issues.map Problem.className = ["mixin.ambiguous_dependency", "mixin.unsatisfied_dependency"] ∧
      graph.warnings = [.ignoredDependency ⟨"Retry", []⟩ ⟨"Audit", []⟩] := by
  have hf : Finished shopFacts := by decide
  exact ⟨hf, dependencies_classified _ _ _ _ _ hf, by rfl, by rfl, by rfl⟩

end DependencyGraph

end MixinPlanner
