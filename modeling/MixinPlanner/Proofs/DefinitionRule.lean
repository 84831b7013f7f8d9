/-
Dependencies on a bare definition.

A dependency that names a definition without arguments stands for an application of it among the other mixins: for the one that
there is, while several make it ambiguous. This is so for closed applications of what is no interface. If the name is that of an
interface, the rule for interfaces takes its place: what counts then is which mixins implement it, and an application of the
interface is not among them just for being one.

- `issue_mem`, `hasEdge_of_finds`: what a call finds is in the graph in the end, whatever the other calls find;
- `resolves_of_absent`: how a dependency that is no mixin comes out among those that it may stand for;
- `call_definitions`, `build_definitions`: what one call leaves of the rule, and from it what the whole graph has: an edge by
  definition never leads to an application of an interface;
- `definition_dependencies_settled`: what comes of a dependency on a bare definition; `not_always_by_definition`: it does not
  stand for the one closed application that there is if the name is that of an interface, or if some other is open.
-/
import MixinPlanner.Proofs.InterfaceClosure
import MixinPlanner.Proofs.Rejection
import MixinPlanner.Proofs.Representation

namespace MixinPlanner

/-- what is left of a list without one position -/
theorem map_fst_filter_zipIdx {α : Type*} (l : List α) (i n : ℕ) (p : α → Bool) :
    ((l.zipIdx n).filter fun a => a.2 != n + i && p a.1).map Prod.fst = (l.eraseIdx i).filter p := by
  induction l generalizing i n with
  | nil => rfl
  | cons a rest ih =>
    rw [List.zipIdx_cons, List.filter_cons]
    cases i with
    | zero =>
      -- the position itself comes first, and all others are larger
      have hrest : ((rest.zipIdx (n + 1)).filter fun b => b.2 != n + 0 && p b.1) =
          (rest.zipIdx (n + 1)).filter fun b => p b.1 := by
        apply List.filter_congr
        intro b hb
        have hlt : n + 1 ≤ b.2 := List.le_snd_of_mem_zipIdx hb
        have hne : (b.2 != n + 0) = true := by
          rw [bne_iff_ne]
          omega
        rw [hne, Bool.true_and]
      rw [hrest, if_neg (by simp), List.eraseIdx_cons_zero, ← Function.comp_def p Prod.fst, ← List.filter_map,
        List.zipIdx_map_fst]
    | succ i =>
      have hne : (n != n + (i + 1)) = true := by
        rw [bne_iff_ne]
        omega
      have hoffset : n + (i + 1) = n + 1 + i := by omega
      rw [hne, Bool.true_and, List.eraseIdx_cons_succ, List.filter_cons, ← ih i (n + 1), hoffset]
      split_ifs
      · rfl
      · rfl

namespace Context

variable (c : Context)

/-- the mixins at other positions -/
def otherMixins (i : ℕ) : List TypeRef := c.mixinTypes.eraseIdx i

/-- the mixins at other positions that apply a definition, with nothing open in their arguments -/
def closedApplications (i : ℕ) (d : TypeRef) : List TypeRef :=
  (c.otherMixins i).filter fun n => n.sameDefinition d && !n.isOpen

end Context

namespace DependencyGraph

variable {settings : Settings} {catalog : Catalog} {c : Context}

theorem others_map_fst (c : Context) (i : ℕ) (p : TypeRef → Bool) :
    ((bare c).others i p).map Prod.fst = (c.otherMixins i).filter p := by
  have h := map_fst_filter_zipIdx c.mixinTypes i 0 p
  rw [Nat.zero_add] at h
  exact h

/-! ## What a call leaves in the graph -/

theorem issue_mem {k : Call} (hk : k ∈ c.calls) {p : Problem} (h : (bare c).issue? settings catalog k = some p) :
    p ∈ (build settings catalog c).issues := by
  rw [(build_entered settings catalog c).issues]
  exact List.mem_append_right _ (List.mem_filterMap.2 ⟨k, hk, h⟩)

/-- what a call finds at another position is an edge -/
theorem hasEdge_of_finds {k : Call} (hk : k ∈ c.calls) {n : TypeRef} {j : ℕ} (h : (bare c).Finds catalog k j)
    (hn : (bare c).nodes[j]? = some n) (hj : k.position ≠ j) : (build settings catalog c).hasEdge k.mixin n = true := by
  have hentered := build_entered settings catalog c
  have hm : (bare c).nodes[k.position]? = some k.mixin := caller_of_mem hk
  have hadmits : (bare c).Admits k.position j :=
    ⟨hj, (List.getElem?_eq_some_iff.1 hm).1, (List.getElem?_eq_some_iff.1 hn).1⟩
  have hleads : (build settings catalog c).Leads k.position j :=
    (hentered.leads _ _).2 (.inr ⟨k, hk, rfl, h, hadmits⟩)
  refine (hasEdge_iff ..).2 ⟨_, _, ?_, ?_, hleads⟩
  · rw [hentered.same.nodes, hm]
  · rw [hentered.same.nodes, hn]

/-! ## Standing for others -/

/-- a dependency comes out by its candidates: one is what it stands for, and several make it ambiguous -/
structure Resolves (settings : Settings) (catalog : Catalog) (c : Context) (k : Call) (candidates : List TypeRef) :
    Prop where
  sole : ∀ n, candidates = [n] → (build settings catalog c).hasEdge k.mixin n = true
  several : 2 ≤ candidates.length →
    .ambiguousDependency c.target k.mixin k.dependency candidates ∈ (build settings catalog c).issues

/-- a dependency that is no mixin comes out by the other mixins that it may stand for -/
theorem resolves_of_absent {k : Call} (hk : k ∈ c.calls) (habsent : k.dependency ∉ c.mixinTypes) :
    Resolves settings catalog c k ((c.otherMixins k.position).filter (stands catalog k.dependency)) := by
  have hlookup := lookup_eq_choose (g := bare c) catalog k.position habsent
  rw [← others_map_fst]
  constructor
  · intro n hsole
    obtain ⟨⟨n, j⟩, hothers, rfl⟩ := List.map_eq_singleton_iff.1 hsole
    rw [hothers] at hlookup
    have hmem : (n, j) ∈ (bare c).others k.position (stands catalog k.dependency) :=
      hothers ▸ List.mem_singleton_self _
    obtain ⟨hn, hj, -⟩ := (mem_others ..).1 hmem
    exact hasEdge_of_finds hk ⟨_, hlookup⟩ hn hj.symm
  · intro hseveral
    apply issue_mem hk
    rw [List.length_map] at hseveral
    match ho : (bare c).others k.position (stands catalog k.dependency) with
    | [] => simp [ho] at hseveral
    | [_] => simp [ho] at hseveral
    | x :: y :: rest =>
      rw [ho] at hlookup
      simp only [issue?, hlookup, choose]
      rfl

/-- an interface that is no mixin, and that nothing implements, is reported -/
theorem unsatisfied_of_absent {k : Call} (hk : k ∈ c.calls) (habsent : k.dependency ∉ c.mixinTypes)
    (hi : catalog.isInterface k.dependency = true)
    (hnone : (c.otherMixins k.position).filter (stands catalog k.dependency) = [])
    (htarget : ¬ catalog.provides c.target k.dependency = true) :
    .unsatisfiedDependency c.target k.mixin k.dependency ∈ (build settings catalog c).issues := by
  have hlookup := lookup_eq_choose (g := bare c) catalog k.position habsent
  rw [← others_map_fst, List.map_eq_nil_iff] at hnone
  have htarget' : catalog.provides (bare c).target k.dependency = false := Bool.eq_false_iff.2 htarget
  rw [hnone, hi, htarget'] at hlookup
  apply issue_mem hk
  simp only [issue?, hlookup, choose, hi]
  simp [bare]

/-- an interface is stood for by what implements it -/
theorem filter_stands_interface {d : TypeRef} (hi : catalog.isInterface d = true) (ns : List TypeRef) :
    ns.filter (stands catalog d) = ns.filter fun n => catalog.implements n d := by
  apply List.filter_congr
  intro n _
  rw [stands, if_pos hi]

/-- any other bare definition is stood for by what applies it -/
theorem filter_stands_definition {d : TypeRef} (hi : catalog.isInterface d = false) (hargs : d.args = [])
    (ns : List TypeRef) : ns.filter (stands catalog d) = ns.filter fun n => n.sameDefinition d := by
  have hdefinition : d.isDefinition = true := by rw [TypeRef.isDefinition, hargs, List.all_nil]
  apply List.filter_congr
  intro n _
  rw [stands, hi, hdefinition, Bool.true_and]
  rfl

/-! ## Edges by definition -/

/-- what is found by definition applies the definition, which is no interface -/
theorem found_by_definition {g : DependencyGraph} {i j : ℕ} {d : TypeRef}
    (h : g.lookup catalog i d = .found j .definition) :
    catalog.isInterface d = false ∧ ∃ n, g.nodes[j]? = some n ∧ n.name = d.name := by
  by_cases hmem : d ∈ g.nodes
  · obtain ⟨j', -, hfound⟩ := lookup_of_mem catalog i hmem
    rw [hfound] at h
    cases h
  · rw [lookup_eq_choose catalog i hmem] at h
    match ho : g.others i (stands catalog d) with
    | [] =>
      rw [ho, choose] at h
      split_ifs at h
    | x :: y :: rest =>
      rw [ho] at h
      cases h
    | [only] =>
      rw [ho] at h
      obtain ⟨rfl, horigin⟩ := Lookup.found.inj h
      have hmem' : (only.1, only.2) ∈ g.others i (stands catalog d) := ho ▸ List.mem_singleton_self _
      obtain ⟨hn, -, hstands⟩ := (mem_others ..).1 hmem'
      have hi : ¬ catalog.isInterface d = true := by
        intro hi
        rw [standsBy, if_pos hi] at horigin
        cases horigin
      rw [stands_iff, if_neg hi] at hstands
      exact ⟨Bool.eq_false_iff.2 hi, only.1, hn, hstands.2⟩

/-- no link that was made by definition leads to an application of an interface -/
def SparesInterfaces (catalog : Catalog) (g : DependencyGraph) : Prop :=
  ∀ l ∈ g.links, l.origin = .definition → ∀ n, g.nodes[l.dependency]? = some n → catalog.isInterface n = false

theorem call_definitions {g : DependencyGraph} (hg : g.SparesInterfaces catalog) (k : Call) :
    (g.call settings catalog k).SparesInterfaces catalog := by
  unfold call enter
  cases hl : g.lookup catalog k.position k.dependency with
  | found j origin =>
    simp only [link]
    split_ifs
    · exact hg
    · intro l hmem horigin n hn
      rcases List.mem_append.1 hmem with hmem | hmem
      · exact hg l hmem horigin n hn
      · -- the link that is made: its target has the name of what was looked up, so it is an interface only if that is
        rw [List.mem_singleton.1 hmem] at horigin hn
        obtain rfl : origin = .definition := horigin
        obtain ⟨hi, n', hn', hname⟩ := found_by_definition hl
        obtain rfl : n' = n := Option.some.inj (hn'.symm.trans hn)
        rw [catalog.isInterface_same_name hname, hi]
  | satisfied => exact hg
  | ambiguous candidates => exact hg
  | missing =>
    simp only
    split_ifs
    · exact hg
    · exact hg

/-- **Edges by definition spare interfaces.** -/
theorem build_definitions (settings : Settings) (catalog : Catalog) (c : Context) :
    (build settings catalog c).SparesInterfaces catalog := by
  rw [build_eq_foldl_calls]
  have h : (bare c).SparesInterfaces catalog := fun l hl => absurd hl List.not_mem_nil
  generalize bare c = g at h
  induction c.calls generalizing g with
  | nil => exact h
  | cons k calls ih => exact ih _ (call_definitions h k)

theorem SparesInterfaces.edges {g : DependencyGraph} (h : g.SparesInterfaces catalog) :
    ∀ e ∈ g.edges, e.origin = .definition → catalog.isInterface e.dependency = false := by
  intro e he horigin
  obtain ⟨l, hl, hedge⟩ := List.mem_filterMap.1 he
  obtain ⟨m, hm, n, hn, rfl⟩ : ∃ m, g.nodes[l.dependent]? = some m ∧
      ∃ n, g.nodes[l.dependency]? = some n ∧ ⟨m, n, l.origin⟩ = e := by
    simpa [Option.bind_eq_some_iff] using hedge
  exact h l hl horigin n hn

/-! ## The rule -/

/-- what comes of a dependency on a bare definition that is no mixin itself -/
structure FollowsDefinition (settings : Settings) (catalog : Catalog) (c : Context) (k : Call) : Prop where
  /-- where the name is not that of an interface, several closed applications make the dependency ambiguous, and they are
  candidates for it -/
  several : catalog.isInterface k.dependency = false → 2 ≤ (c.closedApplications k.position k.dependency).length →
    ∃ candidates, .ambiguousDependency c.target k.mixin k.dependency candidates ∈ (build settings catalog c).issues ∧
      (c.closedApplications k.position k.dependency).Sublist candidates
  /-- if no other mixin applies the definition to anything open, they are just the candidates, and one of them alone is what the
  dependency stands for -/
  closed : catalog.isInterface k.dependency = false →
    (∀ n ∈ c.otherMixins k.position, n.name = k.dependency.name → n.isOpen = false) →
      Resolves settings catalog c k (c.closedApplications k.position k.dependency)
  /-- where the name is that of an interface, what counts is which other mixins implement it -/
  implementers : catalog.isInterface k.dependency = true →
    Resolves settings catalog c k ((c.otherMixins k.position).filter fun n => catalog.implements n k.dependency)
  /-- without any, it is reported unless the target is or implements it, whatever applies it -/
  unimplemented : catalog.isInterface k.dependency = true →
    (∀ n ∈ c.otherMixins k.position, ¬ catalog.implements n k.dependency = true) →
      ¬ catalog.provides c.target k.dependency = true →
        .unsatisfiedDependency c.target k.mixin k.dependency ∈ (build settings catalog c).issues
  /-- and no application of it is depended on for being one -/
  spared : catalog.isInterface k.dependency = true →
    ∀ e ∈ (build settings catalog c).edges, e.origin = .definition → e.dependency.name ≠ k.dependency.name

/-- **Dependencies on a bare definition.** If the definition is no interface, the closed applications among the other mixins
decide, as long as there is no open one. If it is an interface, they count for nothing, and the other mixins that implement it
decide. -/
theorem definition_dependencies_settled (settings : Settings) (catalog : Catalog) (c : Context) {k : Call} (hk : k ∈ c.calls)
    (hargs : k.dependency.args = []) (habsent : k.dependency ∉ c.mixinTypes) : FollowsDefinition settings catalog c k := by
  have hresolves : Resolves settings catalog c k _ := resolves_of_absent hk habsent
  refine ⟨?_, ?_, ?_, ?_, ?_⟩
  · intro hi hseveral
    rw [filter_stands_definition hi hargs] at hresolves
    have hsublist : (c.closedApplications k.position k.dependency).Sublist
        ((c.otherMixins k.position).filter fun n => n.sameDefinition k.dependency) := by
      apply List.monotone_filter_right
      intro n hn
      exact (Bool.and_eq_true_iff.1 hn).1
    exact ⟨_, hresolves.several (hseveral.trans hsublist.length_le), hsublist⟩
  · intro hi hclosed
    have hsame : c.closedApplications k.position k.dependency =
        (c.otherMixins k.position).filter fun n => n.sameDefinition k.dependency := by
      apply List.filter_congr
      intro n hn
      cases hname : n.sameDefinition k.dependency with
      | false => rfl
      | true => rw [hclosed n hn (eq_of_beq hname)]; rfl
    rw [hsame, ← filter_stands_definition hi hargs]
    exact hresolves
  · intro hi
    rw [← filter_stands_interface hi]
    exact hresolves
  · intro hi hnone htarget
    refine unsatisfied_of_absent hk habsent hi ?_ htarget
    rw [filter_stands_interface hi]
    exact List.filter_eq_nil_iff.2 hnone
  · intro hi e he horigin hname
    have hspared := (build_definitions settings catalog c).edges e he horigin
    rw [catalog.isInterface_same_name hname, hi] at hspared
    cases hspared

/-- a store of cups, one box and two crates -/
def shelfFacts : List Fact :=
  let applied (name argument : String) : TypeRef := ⟨name, [.closed ⟨argument, []⟩]⟩
  [.mixin { mixin := applied "IStore" "Cup" }, .mixin { mixin := applied "Box" "Cup" },
   .mixin { mixin := applied "Crate" "Jar" }, .mixin { mixin := applied "Crate" "Cup" },
   .mixin { mixin := ⟨"Retry", []⟩, dependencies := [⟨"Box", []⟩, ⟨"Crate", []⟩, ⟨"IStore", []⟩] }]

/-- the box is depended on, the crates are ambiguous, and the store of cups is none of what implements stores -/
theorem shelfFacts_settled :
    let settings : Settings := {}
    let catalog : Catalog := .ofList [(TypeDecl.ofInterface "IStore").withParam "T" []]
    let context : Context := .build settings ⟨"Shop", []⟩ shelfFacts
    let graph : DependencyGraph := build settings catalog context
    (∀ k ∈ context.calls, k.dependency.args = [] ∧ k.dependency ∉ context.mixinTypes) ∧
      context.calls.map Call.dependency = [⟨"Box", []⟩, ⟨"Crate", []⟩, ⟨"IStore", []⟩] ∧
      (∀ k ∈ context.calls, FollowsDefinition settings catalog context k) ∧
      graph.edges = [⟨⟨"Retry", []⟩, ⟨"Box", [.closed ⟨"Cup", []⟩]⟩, .definition⟩] ∧
      graph.issues =
        [.ambiguousDependency context.target ⟨"Retry", []⟩ ⟨"Crate", []⟩
          [⟨"Crate", [.closed ⟨"Jar", []⟩]⟩, ⟨"Crate", [.closed ⟨"Cup", []⟩]⟩],
         .unsatisfiedDependency context.target ⟨"Retry", []⟩ ⟨"IStore", []⟩] := by
  intro settings catalog context graph
  have hcalls : ∀ k ∈ context.calls, k.dependency.args = [] ∧ k.dependency ∉ context.mixinTypes := by decide
  refine ⟨hcalls, by decide, ?_, by decide +kernel, by decide +kernel⟩
  intro k hk
  exact definition_dependencies_settled settings catalog context hk (hcalls k hk).1 (hcalls k hk).2

/-! ## What a bare definition does not always stand for -/

/-- the rule for every bare definition alike: what counts is the closed applications of it among the other mixins, whatever
else there is -/
structure ByDefinition (settings : Settings) (catalog : Catalog) (c : Context) (k : Call) : Prop extends
    Resolves settings catalog c k (c.closedApplications k.position k.dependency) where
  closed : ∀ candidates, .ambiguousDependency c.target k.mixin k.dependency candidates ∈ (build settings catalog c).issues →
    ∀ n ∈ candidates, n.isOpen = false

/-- a retry that depends on boxes, after some of them -/
def boxContext (arguments : List TypeArg) : Context :=
  .build {} ⟨"Shop", []⟩ (arguments.map (fun a => .mixin { mixin := ⟨"Box", [a]⟩ }) ++
    [.mixin { mixin := ⟨"Retry", []⟩, dependencies := [⟨"Box", []⟩] }])

/-- one closed application among the others is not depended on if boxes are an interface, and also not if boxes are applied to
something open as well -/
theorem not_always_by_definition :
    let box : TypeRef := ⟨"Box", []⟩
    let cups : TypeArg := .closed ⟨"Cup", []⟩
    let retry (i : ℕ) : Call := ⟨⟨"Retry", []⟩, i, box⟩
    let catalog (boxes : TypeDecl) : Catalog := .ofList [boxes.withParam "T" []]
    (retry 1 ∈ (boxContext [cups]).calls ∧ box ∉ (boxContext [cups]).mixinTypes ∧
      (boxContext [cups]).closedApplications 1 box = [⟨"Box", [cups]⟩] ∧
      ¬ ByDefinition {} (catalog (.ofInterface "Box")) (boxContext [cups]) (retry 1)) ∧
    (retry 2 ∈ (boxContext [cups, .param "T"]).calls ∧ box ∉ (boxContext [cups, .param "T"]).mixinTypes ∧
      (boxContext [cups, .param "T"]).closedApplications 2 box = [⟨"Box", [cups]⟩] ∧
      ¬ ByDefinition {} (catalog (.ofClass "Box")) (boxContext [cups, .param "T"]) (retry 2)) := by
  intro box cups retry catalog
  have hcall₁ : retry 1 ∈ (boxContext [cups]).calls := (Context.mem_calls _ _).2 ⟨_, rfl, rfl, by decide⟩
  have hcall₂ : retry 2 ∈ (boxContext [cups, .param "T"]).calls := (Context.mem_calls _ _).2 ⟨_, rfl, rfl, by decide⟩
  refine ⟨⟨hcall₁, by decide, by decide, ?_⟩, ⟨hcall₂, by decide, by decide, ?_⟩⟩
  · intro h
    have hedge := h.sole ⟨"Box", [cups]⟩ (by decide)
    exact absurd hedge (by decide +kernel)
  · intro h
    have hedge := h.sole ⟨"Box", [cups]⟩ (by decide)
    exact absurd hedge (by decide +kernel)

end DependencyGraph

end MixinPlanner
