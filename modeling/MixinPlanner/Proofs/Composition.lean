/-
What an accepted plan promises.

A plan is made when the mixins of a context have an order, and nothing was found wrong while they were linked
(`Accepted`). Then a call has found a mixin, which comes later in the order, or something that the target provides, or
something that was allowed to be missing; a call that has to choose among the other mixins has found none, or the only one.

- `Accepted.honours`: the same for one dependency, without positions.
- `Context.composed`: a plan lists the mixins of its context, each once, and honours every dependency of each.
- `resolve_composed`: a plan does so for the context of the target's facts.
-/
import MixinPlanner.Proofs.Folding
import MixinPlanner.Proofs.Placing
import MixinPlanner.Resolution

namespace MixinPlanner

/-! ## Honouring a dependency -/

/-- of the mixins other than `m` in an order, just `n` has a property, and `m` comes before it -/
structure SoleOther (order : List TypeRef) (m : TypeRef) (p : TypeRef → Prop) (n : TypeRef) : Prop where
  other : n ≠ m
  holds : p n
  sole : ∀ n' ∈ order, n' ≠ m → p n' → n' = n
  after : Precedes order m n

/-- an order of mixins, with the warnings given, does right by a dependency `d` of the mixin `m` -/
structure Honours (settings : Settings) (catalog : Catalog) (target : TypeRef) (order : List TypeRef)
    (warnings : List Warning) (m d : TypeRef) : Prop where
  /-- a planned dependency comes after the mixin -/
  planned : d ∈ order → Precedes order m d
  /-- an interface is implemented by one other mixin, which comes after, or else the target provides it -/
  interface : d ∉ order → catalog.isInterface d = true →
    (∃ n, SoleOther order m (fun n => catalog.implements n d = true) n) ∨
    ((∀ n ∈ order, n ≠ m → ¬ catalog.implements n d = true) ∧ catalog.provides target d = true)
  /-- a definition that other mixins apply is applied by one, which comes after -/
  definition : d ∉ order → ¬ catalog.isInterface d = true → (∀ t, .closed t ∉ d.args) →
    (∃ n ∈ order, n ≠ m ∧ n.name = d.name) → ∃ n, SoleOther order m (fun n => n.name = d.name) n
  /-- anything else was allowed to be missing, and is reported -/
  ignored : d ∉ order → ¬ catalog.isInterface d = true →
    ¬ ((∀ t, .closed t ∉ d.args) ∧ ∃ n ∈ order, n ≠ m ∧ n.name = d.name) →
    settings.strictDependencies = false ∧ .ignoredDependency m d ∈ warnings

theorem Honours.mono {settings : Settings} {catalog : Catalog} {target : TypeRef} {order : List TypeRef}
    {warnings warnings' : List Warning} {m d : TypeRef} (h : Honours settings catalog target order warnings m d)
    (hsub : warnings ⊆ warnings') : Honours settings catalog target order warnings' m d :=
  { h with ignored := fun hd hi hno => (h.ignored hd hi hno).imp_right (hsub ·) }

/-- what a plan for a target promises about the context that it was made from -/
structure Composed (settings : Settings) (catalog : Catalog) (target : TypeRef) (context : Context) (plan : Plan) :
    Prop where
  /-- the plan lists the context's mixins, as they stand there -/
  lists : (plan.mixins.map fun p => (p.mixin, p.kind, p.visibility, p.dependencies)).Perm
    (context.mixins.map fun e => (e.mixin, e.fact.kind, e.fact.visibility, e.fact.dependencies))
  /-- each of them once -/
  once : plan.order.Nodup
  honours : ∀ p ∈ plan.mixins, ∀ d ∈ p.dependencies,
    Honours settings catalog target plan.order plan.warnings p.mixin d

namespace DependencyGraph

/-! ## Looking up -/

theorem position?_eq_none (g : DependencyGraph) (m : TypeRef) : g.position? m = none ↔ m ∉ g.nodes :=
  List.idxOf?_eq_none_iff

theorem getElem?_of_position? {g : DependencyGraph} {m : TypeRef} {j : ℕ} (h : g.position? m = some j) :
    g.nodes[j]? = some m := by
  obtain ⟨hj, hm, -⟩ := List.idxOf?_eq_some_iff.1 h
  rw [List.getElem?_eq_getElem hj, hm]

theorem mem_others (g : DependencyGraph) (i : ℕ) (p : TypeRef → Bool) (n : TypeRef) (j : ℕ) :
    (n, j) ∈ g.others i p ↔ g.nodes[j]? = some n ∧ j ≠ i ∧ p n = true := by
  simp [others, List.mem_zipIdx_iff_getElem?]

theorem lookup_of_mem {g : DependencyGraph} {d : TypeRef} (catalog : Catalog) (i : ℕ) (h : d ∈ g.nodes) :
    ∃ j, g.nodes[j]? = some d ∧ g.lookup catalog i d = .found j .explicit := by
  obtain ⟨j, hj⟩ := Option.ne_none_iff_exists'.1 (mt (position?_eq_none g d).1 (not_not_intro h))
  exact ⟨j, getElem?_of_position? hj, by simp [lookup, hj]⟩

theorem lookup_of_not_mem {g : DependencyGraph} {d : TypeRef} (catalog : Catalog) (i : ℕ) (h : d ∉ g.nodes) :
    g.lookup catalog i d =
      if catalog.isInterface d then
        choose .interface (if catalog.provides g.target d then .satisfied else .missing)
          (g.others i fun m => catalog.implements m d)
      else if d.isDefinition then choose .definition .missing (g.others i fun m => m.sameDefinition d)
      else .missing := by
  simp [lookup, (position?_eq_none g d).2 h]

/-- a call is made by the mixin at its position -/
theorem caller_of_mem {context : Context} {k : Call} (hk : k ∈ context.calls) :
    (bare context).nodes[k.position]? = some k.mixin := by
  obtain ⟨e, he, hm, -⟩ := (context.mem_calls k).1 hk
  simp [bare, he, hm]

/-- the mixins of a context have an order, and nothing was found wrong while they were linked -/
structure Accepted (settings : Settings) (catalog : Catalog) (context : Context) (order : List TypeRef) : Prop where
  once : (context.mixins.map MixinEntry.mixin).Nodup
  ordered : (build settings catalog context).order = .ok order
  sound : (build settings catalog context).issues = []

variable {settings : Settings} {catalog : Catalog} {context : Context} {order : List TypeRef}

theorem build_nodes (settings : Settings) (catalog : Catalog) (context : Context) :
    (build settings catalog context).nodes = context.mixins.map MixinEntry.mixin :=
  (build_entered settings catalog context).same.nodes

theorem Accepted.perm (h : Accepted settings catalog context order) :
    order.Perm (context.mixins.map MixinEntry.mixin) := by
  obtain ⟨ps, hps, rfl⟩ := (order_ok_iff _ order).1 h.ordered
  have hleast := isLeast_of_positionOrder (linked_build settings catalog context) hps
  rw [← build_nodes settings catalog, ← mixinsAt_range]
  exact hleast.1.perm.filterMap _

theorem Accepted.nodup (h : Accepted settings catalog context order) : order.Nodup := h.perm.nodup_iff.2 h.once

/-- a mixin comes before what one of its calls finds -/
theorem Accepted.precedes (h : Accepted settings catalog context order) {k : Call} (hk : k ∈ context.calls) {j : ℕ}
    {n : TypeRef} (hfinds : (bare context).Finds catalog k j) (hj : (bare context).nodes[j]? = some n)
    (hne : k.position ≠ j) : Precedes order k.mixin n := by
  obtain ⟨ps, hps, rfl⟩ := (order_ok_iff _ order).1 h.ordered
  have hleast := isLeast_of_positionOrder (linked_build settings catalog context) hps
  have hi := caller_of_mem hk
  have hadmits : (bare context).Admits k.position j :=
    ⟨hne, (List.getElem?_eq_some_iff.1 hi).1, (List.getElem?_eq_some_iff.1 hj).1⟩
  have hleads : (build settings catalog context).Leads k.position j :=
    ((build_entered settings catalog context).leads _ _).2 (.inr ⟨k, hk, rfl, hfinds, hadmits⟩)
  have hnodes : (build settings catalog context).nodes = (bare context).nodes := build_nodes settings catalog context
  exact (hleast.1.precedes _ _ hleads).filterMap _ (hnodes ▸ hi) (hnodes ▸ hj)

theorem Accepted.issue?_eq_none (h : Accepted settings catalog context order) {k : Call} (hk : k ∈ context.calls) :
    (bare context).issue? settings catalog k = none := by
  have hsound := h.sound
  rw [(build_entered settings catalog context).issues, List.append_eq_nil_iff] at hsound
  exact List.filterMap_eq_nil_iff.1 hsound.2 k hk

theorem Accepted.not_ambiguous (h : Accepted settings catalog context order) {k : Call} (hk : k ∈ context.calls)
    (candidates : List TypeRef) : (bare context).lookup catalog k.position k.dependency ≠ .ambiguous candidates := by
  intro hl
  have hissue := h.issue?_eq_none hk
  simp [issue?, hl] at hissue

/-- what is missing was allowed to be, and is reported -/
theorem Accepted.missing (h : Accepted settings catalog context order) {k : Call} (hk : k ∈ context.calls)
    (hl : (bare context).lookup catalog k.position k.dependency = .missing) :
    settings.strictDependencies = false ∧ ¬ catalog.isInterface k.dependency = true ∧
      .ignoredDependency k.mixin k.dependency ∈ (build settings catalog context).warnings := by
  have hissue := h.issue?_eq_none hk
  simp only [issue?, hl, ite_eq_right_iff, reduceCtorEq, imp_false, Bool.or_eq_true, not_or, Bool.not_eq_true] at hissue
  refine ⟨hissue.1, by simp [hissue.2], ?_⟩
  rw [(build_entered settings catalog context).warnings]
  refine List.mem_append_right _ (List.mem_filterMap.2 ⟨k, hk, ?_⟩)
  simp [warning?, hl, hissue]

/-- a call that chooses among the other mixins with a property finds none, or the only one -/
theorem Accepted.choose (h : Accepted settings catalog context order) {k : Call} (hk : k ∈ context.calls)
    {origin : LinkOrigin} {otherwise : Lookup} {p : TypeRef → Bool}
    (hl : (bare context).lookup catalog k.position k.dependency =
      DependencyGraph.choose origin otherwise ((bare context).others k.position p)) :
    ((∀ n ∈ order, n ≠ k.mixin → ¬ p n = true) ∧
      (bare context).lookup catalog k.position k.dependency = otherwise) ∨
    ∃ n, SoleOther order k.mixin (fun n => p n = true) n := by
  have hi := caller_of_mem hk
  -- a mixin of the order other than the caller is a candidate if it has the property
  have hcandidate : ∀ n ∈ order, n ≠ k.mixin → p n = true → ∃ j, (n, j) ∈ (bare context).others k.position p := by
    intro n hn hne hp
    obtain ⟨j, hj⟩ := List.mem_iff_getElem?.1 (h.perm.subset hn)
    refine ⟨j, (mem_others ..).2 ⟨hj, ?_, hp⟩⟩
    rintro rfl
    exact hne (Option.some.inj (hj.symm.trans hi))
  cases ho : (bare context).others k.position p with
  | nil =>
    rw [ho] at hl hcandidate
    refine .inl ⟨fun n hn hne hp => ?_, hl⟩
    obtain ⟨j, hj⟩ := hcandidate n hn hne hp
    exact List.not_mem_nil hj
  | cons x rest =>
    rw [ho] at hl hcandidate
    cases rest with
    | cons y rest => exact absurd hl (h.not_ambiguous hk _)
    | nil =>
      obtain ⟨n, j⟩ := x
      obtain ⟨hj, hji, hp⟩ := (mem_others ..).1 (ho ▸ List.mem_singleton_self (n, j))
      have hafter := h.precedes hk ⟨origin, hl⟩ hj hji.symm
      refine .inr ⟨n, (hafter.ne h.nodup).symm, hp, fun n' hn' hne' hp' => ?_, hafter⟩
      obtain ⟨j', hj'⟩ := hcandidate n' hn' hne' hp'
      exact congrArg Prod.fst (List.mem_singleton.1 hj')

theorem Accepted.mem_iff (h : Accepted settings catalog context order) (d : TypeRef) :
    d ∈ order ↔ d ∈ (bare context).nodes := h.perm.mem_iff

/-- a mixin comes before another one that it depends on -/
theorem Accepted.planned (h : Accepted settings catalog context order) {k : Call} (hk : k ∈ context.calls)
    (hne : k.mixin ≠ k.dependency) (hd : k.dependency ∈ order) : Precedes order k.mixin k.dependency := by
  obtain ⟨j, hj, hl⟩ := lookup_of_mem catalog k.position ((h.mem_iff _).1 hd)
  refine h.precedes hk ⟨_, hl⟩ hj ?_
  rintro rfl
  exact hne (Option.some.inj ((caller_of_mem hk).symm.trans hj))

/-- an interface has one other mixin for it, or is provided by the target -/
theorem Accepted.interface (h : Accepted settings catalog context order) {k : Call} (hk : k ∈ context.calls)
    (hd : k.dependency ∉ order) (hi : catalog.isInterface k.dependency = true) :
    (∃ n, SoleOther order k.mixin (fun n => catalog.implements n k.dependency = true) n) ∨
    ((∀ n ∈ order, n ≠ k.mixin → ¬ catalog.implements n k.dependency = true) ∧
      catalog.provides context.target k.dependency = true) := by
  have hl := lookup_of_not_mem catalog k.position (mt (h.mem_iff _).2 hd)
  rw [if_pos hi] at hl
  rcases h.choose hk hl with ⟨hnone, hotherwise⟩ | hsole
  · refine .inr ⟨hnone, ?_⟩
    by_contra hprovides
    exact (h.missing hk (hotherwise.trans (if_neg hprovides))).2.1 hi
  · exact .inl hsole

/-- a definition has one other mixin that applies it, or none, and then it is missing -/
theorem Accepted.definition (h : Accepted settings catalog context order) {k : Call} (hk : k ∈ context.calls)
    (hd : k.dependency ∉ order) (hi : ¬ catalog.isInterface k.dependency = true)
    (hdef : ∀ t, .closed t ∉ k.dependency.args) :
    (∃ n, SoleOther order k.mixin (fun n => n.name = k.dependency.name) n) ∨
    ((∀ n ∈ order, n ≠ k.mixin → ¬ n.name = k.dependency.name) ∧
      (bare context).lookup catalog k.position k.dependency = .missing) := by
  have hl := lookup_of_not_mem catalog k.position (mt (h.mem_iff _).2 hd)
  rw [if_neg hi, if_pos ((TypeRef.isDefinition_iff _).2 hdef)] at hl
  have hname : ∀ n : TypeRef, n.sameDefinition k.dependency = true ↔ n.name = k.dependency.name := by
    intro n
    simp [TypeRef.sameDefinition]
  have hchoice := h.choose hk hl
  simp only [hname] at hchoice
  exact hchoice.symm

/-- **What becomes of a dependency.** When nothing is wrong, what a mixin calls comes after it, or is provided by the
target, or was allowed to be missing. -/
theorem Accepted.honours (h : Accepted settings catalog context order) {k : Call} (hk : k ∈ context.calls)
    (hne : k.mixin ≠ k.dependency) : Honours settings catalog context.target order
      (build settings catalog context).warnings k.mixin k.dependency := by
  refine ⟨h.planned hk hne, h.interface hk, ?_, ?_⟩
  · intro hd hi hdef ⟨n, hn, hnm, hname⟩
    rcases h.definition hk hd hi hdef with hsole | ⟨hnone, -⟩
    · exact hsole
    · exact absurd hname (hnone n hn hnm)
  · intro hd hi hno
    have hmissing : (bare context).lookup catalog k.position k.dependency = .missing := by
      by_cases hdef : ∀ t, .closed t ∉ k.dependency.args
      · rcases h.definition hk hd hi hdef with ⟨n, hsole⟩ | ⟨-, hmissing⟩
        · exact absurd ⟨hdef, n, hsole.after.subset (by simp), hsole.other, hsole.holds⟩ hno
        · exact hmissing
      · rw [lookup_of_not_mem catalog k.position (mt (h.mem_iff _).2 hd), if_neg hi,
          if_neg (mt (TypeRef.isDefinition_iff _).1 hdef)]
    obtain ⟨hstrict, -, hwarning⟩ := h.missing hk hmissing
    exact ⟨hstrict, hwarning⟩

end DependencyGraph

/-! ## The plan -/

/-- a context has a plan when its mixins have an order and nothing is wrong -/
theorem Context.resolve_eq_ok_iff {settings : Settings} {catalog : Catalog} {c : Context} {plan : Plan} :
    c.resolve settings catalog = .ok plan ↔
      c.problems catalog = [] ∧ (DependencyGraph.build settings catalog c).issues = [] ∧
        ∃ order, (DependencyGraph.build settings catalog c).order = .ok order ∧
          plan = (Plan.assemble catalog c order).withWarnings
            (c.warnings ++ (DependencyGraph.build settings catalog c).warnings) := by
  simp only [resolve, validate]
  cases ho : (DependencyGraph.build settings catalog c).order with
  | error cycle => simp
  | ok order =>
    simp only [Except.ok.injEq, exists_eq_left']
    by_cases hfound : c.problems catalog ++ (DependencyGraph.build settings catalog c).issues = []
    · rw [hfound]
      rw [List.append_eq_nil_iff] at hfound
      simp [hfound, eq_comm]
    · have hne : (c.problems catalog ++ (DependencyGraph.build settings catalog c).issues).isEmpty = false := by
        rwa [← Bool.not_eq_true, List.isEmpty_iff]
      rw [hne]
      rw [List.append_eq_nil_iff, not_and] at hfound
      simpa using fun hproblems hissues => absurd hissues (hfound hproblems)

namespace Plan

variable (catalog : Catalog) {context : Context} {order : List TypeRef}

/-- an order of a context's mixins finds the entry of each -/
theorem filterMap_find?_perm (hn : (context.mixins.map MixinEntry.mixin).Nodup)
    (hp : order.Perm (context.mixins.map MixinEntry.mixin)) : (order.filterMap context.find?).Perm context.mixins := by
  have hentries : (context.mixins.map MixinEntry.mixin).filterMap context.find? = context.mixins := by
    rw [List.filterMap_map]
    calc context.mixins.filterMap (context.find? ∘ MixinEntry.mixin)
        = context.mixins.filterMap some := List.filterMap_congr fun e he =>
          (context.find?_eq_some hn e.mixin e).2 ⟨he, rfl⟩
      _ = context.mixins := List.filterMap_some
  exact hentries ▸ hp.filterMap context.find?

/-- no mixin of an order is left out when the context has them all -/
theorem map_filterMap_find? (h : ∀ m ∈ order, m ∈ context.mixins.map MixinEntry.mixin) :
    (order.filterMap context.find?).map MixinEntry.mixin = order := by
  induction order with
  | nil => rfl
  | cons m order ih =>
    obtain ⟨hm, hrest⟩ := List.forall_mem_cons.1 h
    obtain ⟨e, he⟩ : ∃ e, context.find? m = some e := by
      rw [← Option.ne_none_iff_exists', Ne, context.find?_eq_none]
      obtain ⟨e, he, hem⟩ := List.mem_map.1 hm
      exact fun hnone => hnone e he hem
    rw [List.filterMap_cons_some he, List.map_cons, Context.mixin_of_find? he, ih hrest]

theorem assemble_mixins (order : List TypeRef) : (assemble catalog context order).mixins =
    (order.filterMap context.find?).map fun e =>
      ⟨e.mixin, e.fact.kind, e.fact.visibility, e.fact.dependencies, catalog.directInterfaces e.mixin⟩ := rfl

theorem assemble_order (h : ∀ m ∈ order, m ∈ context.mixins.map MixinEntry.mixin) :
    (assemble catalog context order).order = order := by
  rw [Plan.order, assemble_mixins, List.map_map]
  exact map_filterMap_find? h

end Plan

/-- an accepted plan of a context whose entries are as its facts made them -/
theorem Context.composed {settings : Settings} {catalog : Catalog} {context : Context} {plan : Plan}
    (hn : (context.mixins.map MixinEntry.mixin).Nodup) (hw : ∀ e ∈ context.mixins, e.fact.WellFormed)
    (h : context.resolve settings catalog = .ok plan) : Composed settings catalog context.target context plan := by
  obtain ⟨-, hissues, order, horder, rfl⟩ := resolve_eq_ok_iff.1 h
  have hok : DependencyGraph.Accepted settings catalog context order := ⟨hn, horder, hissues⟩
  have hplan : (Plan.assemble catalog context order).order = order :=
    Plan.assemble_order catalog fun m => hok.perm.mem_iff.1
  refine ⟨?_, ?_, ?_⟩
  · have hperm := (Plan.filterMap_find?_perm hn hok.perm).map fun e : MixinEntry =>
      (e.mixin, e.fact.kind, e.fact.visibility, e.fact.dependencies)
    rw [Plan.withWarnings, Plan.assemble_mixins, List.map_map]
    exact hperm
  · show (Plan.assemble catalog context order).order.Nodup
    rw [hplan]
    exact hok.nodup
  · intro p hp d hd
    obtain ⟨e, he, rfl⟩ := List.mem_map.1 (Plan.assemble_mixins catalog order ▸ hp)
    have he' : e ∈ context.mixins := (Plan.filterMap_find?_perm hn hok.perm).subset he
    obtain ⟨i, hi⟩ := List.mem_iff_getElem?.1 he'
    have hk : ⟨e.mixin, i, d⟩ ∈ context.calls := (context.mem_calls _).2 ⟨e, hi, rfl, hd⟩
    have hne : e.mixin ≠ d := by
      rintro rfl
      exact (hw e he').not_self hd
    show Honours settings catalog context.target (Plan.assemble catalog context order).order _ e.mixin d
    rw [hplan]
    exact (hok.honours hk hne).mono (List.subset_append_right _ _)

/-- **What an accepted plan promises.** It lists the mixins that are left when the facts are folded, as they stand there
and each once, and does right by every dependency of each of them. -/
theorem resolve_composed (settings : Settings) (catalog : Catalog) (target : TypeRef) (facts : List Fact)
    (hf : Finished facts) (plan : Plan) (h : resolve settings catalog target facts = .ok plan) :
    Composed settings catalog target (Context.build settings target facts) plan := by
  have hcomposed := Context.composed (Context.mixins_nodup settings target facts)
    (fun _ he => Context.wellFormed_of_mem_build settings target facts hf he) h
  rwa [Context.build_target] at hcomposed

/-- a catalog of an interface, a class that implements it, and a class with a parameter -/
def loggingCatalog : Catalog :=
  .ofList [.ofInterface "ILog", (TypeDecl.ofClass "FileLog").implementing ⟨"ILog", []⟩,
    (TypeDecl.ofClass "Cache").withParam "T" []]

/-- a mixin that calls an interface, a definition, a mixin and something absent, with mixins for the first three -/
def loggingFacts : List Fact :=
  let type (name : String) : TypeRef := ⟨name, []⟩
  [.mixin { mixin := type "FileLog" },
   .mixin { mixin := ⟨"Cache", [.closed (type "Order")]⟩, dependencies := [type "ILog"] },
   .mixin { mixin := type "Retry", dependencies := [type "Audit", type "ILog", type "Cache", type "Metrics"] },
   .mixin { mixin := type "Audit", kind := .used }]

theorem loggingFacts_composed : Finished loggingFacts ∧
    ∃ plan, resolve { strictDependencies := false } loggingCatalog ⟨"T", []⟩ loggingFacts = .ok plan ∧
      plan.order.map TypeRef.name = ["Retry", "Cache", "FileLog", "Audit"] ∧
      Composed { strictDependencies := false } loggingCatalog ⟨"T", []⟩
        (Context.build { strictDependencies := false } ⟨"T", []⟩ loggingFacts) plan := by
  have hf : Finished loggingFacts := by decide
  have horder : (resolve { strictDependencies := false } loggingCatalog ⟨"T", []⟩ loggingFacts).toOption.map
      (fun plan => plan.order.map TypeRef.name) = some ["Retry", "Cache", "FileLog", "Audit"] := by rfl
  cases h : resolve { strictDependencies := false } loggingCatalog ⟨"T", []⟩ loggingFacts with
  | error problems => rw [h] at horder; cases horder
  | ok plan =>
    rw [h] at horder
    exact ⟨hf, plan, rfl, Option.some.inj horder, resolve_composed _ _ _ _ hf plan h⟩

end MixinPlanner
