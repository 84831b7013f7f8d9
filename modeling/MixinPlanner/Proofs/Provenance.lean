/-
Where facts come from does not matter.

The origin of a fact goes with it into the context, through suppressing, merging and completing, and is part of what is
written of the context. Nothing looks at it: to fold facts without their origins gives the context without the origins
(`fold_anonymous` for one fact, `build_anonymous` for all), and a context resolves as it does without them
(`resolve_anonymous`). So facts that differ in their origins only have one plan, or one list of problems
(`resolve_ignores_origins`).
-/
import MixinPlanner.Proofs.Folding
import MixinPlanner.Proofs.Linking
import MixinPlanner.Resolution

namespace MixinPlanner

/-! ## Without origins -/

/-- the fact without its origin -/
def MixinFact.anonymous (f : MixinFact) : MixinFact := { f with origin := none }

/-- the fact without its origin -/
def CompleteInterfaceFact.anonymous (f : CompleteInterfaceFact) : CompleteInterfaceFact := { f with origin := none }

/-- the fact without its origin -/
def Fact.anonymous : Fact → Fact
  | mixin f => .mixin f.anonymous
  | completeInterface f => .completeInterface f.anonymous

/-- facts that differ in their origins at most -/
inductive Fact.SameButOrigin : Fact → Fact → Prop
  | mixin (f : MixinFact) (origin : Option String) : SameButOrigin (.mixin f) (.mixin { f with origin })
  | completeInterface (f : CompleteInterfaceFact) (origin : Option String) :
      SameButOrigin (.completeInterface f) (.completeInterface { f with origin })

theorem Fact.SameButOrigin.anonymous_eq {x y : Fact} (h : x.SameButOrigin y) : x.anonymous = y.anonymous := by
  cases h with
  | mixin f origin => rfl
  | completeInterface f origin => rfl

/-- the entry without the origin of its fact -/
def MixinEntry.anonymous (e : MixinEntry) : MixinEntry := { e with fact := e.fact.anonymous }

@[simp]
theorem MixinEntry.anonymous_mixin (e : MixinEntry) : e.anonymous.mixin = e.mixin := rfl

namespace Context

/-- the context without the origins of its facts -/
def anonymous (c : Context) : Context :=
  { c with
    mixins := c.mixins.map MixinEntry.anonymous
    completeInterfaces := c.completeInterfaces.map CompleteInterfaceFact.anonymous }

@[simp]
theorem anonymous_mixinTypes (c : Context) : c.anonymous.mixins.map MixinEntry.mixin = c.mixins.map MixinEntry.mixin := by
  simp [anonymous, Function.comp_def]

@[simp]
theorem anonymous_find? (c : Context) (m : TypeRef) :
    c.anonymous.find? m = (c.find? m).map MixinEntry.anonymous := by
  simp [find?, anonymous, List.find?_map, Function.comp_def]

/-! ## Folding -/

theorem suppress_anonymous (byDefinition : Bool) (m : TypeRef) (c : Context) (s : TypeRef) :
    c.anonymous.suppress byDefinition m s = (c.suppress byDefinition m s).anonymous := by
  simp only [suppress, anonymous_mixinTypes]
  split_ifs
  · rfl
  · simp [anonymous, List.filter_map, Function.comp_def]

theorem wiped_anonymous (byDefinition : Bool) (c : Context) (f : MixinFact) :
    c.anonymous.wiped byDefinition f.anonymous = (c.wiped byDefinition f).anonymous := by
  unfold wiped
  show f.suppresses.toList.foldl (suppress byDefinition f.mixin) c.anonymous = _
  induction f.suppresses.toList generalizing c with
  | nil => rfl
  | cons s l ih => rw [List.foldl_cons, List.foldl_cons, suppress_anonymous, ih]

theorem add_anonymous (c : Context) (f : MixinFact) (n : ℕ) :
    c.anonymous.add f.anonymous n = (c.add f n).anonymous := by
  have hfind : c.anonymous.find? f.anonymous.mixin = (c.find? f.mixin).map MixinEntry.anonymous :=
    anonymous_find? c f.mixin
  have habsorbed : ∀ e : MixinEntry, absorbed f.anonymous e.anonymous = (absorbed f e).anonymous := by
    intro e
    by_cases he : e.mixin = f.mixin
    · have he' : e.anonymous.mixin = f.anonymous.mixin := he
      rw [absorbed, absorbed, if_pos he, if_pos he']
      rfl
    · have he' : ¬ e.anonymous.mixin = f.anonymous.mixin := he
      rw [absorbed, absorbed, if_neg he, if_neg he']
  unfold add
  rw [hfind]
  cases c.find? f.mixin with
  | none => simp [anonymous, MixinEntry.anonymous]
  | some e =>
    have hmixins : c.anonymous.mixins.map (absorbed f.anonymous) = (c.mixins.map (absorbed f)).map MixinEntry.anonymous := by
      rw [anonymous, List.map_map, List.map_map]
      exact List.map_congr_left fun e _ => habsorbed e
    have happlication : e.anonymous.fact.application = e.fact.application ∧ f.anonymous.application = f.application :=
      ⟨rfl, rfl⟩
    simp only [Option.map_some, happlication]
    exact congrArg (fun mixins => ({ c.anonymous with mixins, conflicts := _ } : Context)) hmixins

theorem complete_anonymous (c : Context) (f : CompleteInterfaceFact) :
    c.anonymous.complete f.anonymous = (c.complete f).anonymous := by
  have hknown : (c.anonymous.completeInterfaces.any fun known => known.interface == f.anonymous.interface) =
      c.completeInterfaces.any fun known => known.interface == f.interface := by
    rw [anonymous, List.any_map]
    rfl
  unfold complete
  rw [hknown]
  split_ifs
  · rfl
  · simp [anonymous]

/-- one fact folded without its origin -/
theorem fold_anonymous (byDefinition : Bool) (c : Context) (x : Fact) (n : ℕ) :
    c.anonymous.fold byDefinition (x.anonymous, n) = (c.fold byDefinition (x, n)).anonymous := by
  cases x with
  | mixin f =>
    rw [Fact.anonymous, fold_mixin, fold_mixin, wiped_anonymous, add_anonymous]
  | completeInterface f =>
    rw [Fact.anonymous, fold_completeInterface, fold_completeInterface, complete_anonymous]

/-- **The context of facts without origins** is their context without origins. -/
theorem build_anonymous (settings : Settings) (target : TypeRef) (facts : List Fact) :
    build settings target (facts.map Fact.anonymous) = (build settings target facts).anonymous := by
  induction facts using List.reverseRecOn with
  | nil => rfl
  | append_singleton facts x ih =>
    rw [List.map_append, List.map_singleton, build_snoc, build_snoc, ih, List.length_map, fold_anonymous]

/-! ## Resolving -/

section Resolve

variable (settings : Settings) (catalog : Catalog) (c : Context)

theorem calls_anonymous : c.anonymous.calls = c.calls := by
  rw [calls, anonymous, List.zipIdx_map, List.flatMap_map]
  rfl

theorem graph_anonymous : DependencyGraph.build settings catalog c.anonymous = .build settings catalog c := by
  have hbare : DependencyGraph.bare c.anonymous = DependencyGraph.bare c := by
    rw [DependencyGraph.bare, anonymous_mixinTypes]
    rfl
  rw [DependencyGraph.build_eq_foldl_calls, DependencyGraph.build_eq_foldl_calls, calls_anonymous, hbare]

theorem problems_anonymous : c.anonymous.problems catalog = c.problems catalog := by
  have hmembers : c.anonymous.providedMembers catalog = c.providedMembers catalog := by
    rw [providedMembers, anonymous_mixinTypes]
    rfl
  have hinterface : ∀ f : CompleteInterfaceFact,
      c.anonymous.interfaceProblem catalog f.anonymous = c.interfaceProblem catalog f := by
    intro f
    rw [interfaceProblem, interfaceFault, hmembers]
    rfl
  have hmixins : c.anonymous.mixins.flatMap (c.anonymous.mixinProblems catalog) =
      c.mixins.flatMap (c.mixinProblems catalog) := by
    rw [anonymous, List.flatMap_map]
    rfl
  have hinterfaces : c.anonymous.completeInterfaces.filterMap (c.anonymous.interfaceProblem catalog) =
      c.completeInterfaces.filterMap (c.interfaceProblem catalog) := by
    rw [show c.anonymous.completeInterfaces = c.completeInterfaces.map CompleteInterfaceFact.anonymous from rfl,
      List.filterMap_map]
    exact List.filterMap_congr fun f _ => hinterface f
  rw [problems, hmixins, hinterfaces]
  rfl

theorem assemble_anonymous (order : List TypeRef) :
    Plan.assemble catalog c.anonymous order = Plan.assemble catalog c order := by
  have hentries : order.filterMap c.anonymous.find? = (order.filterMap c.find?).map MixinEntry.anonymous := by
    rw [List.map_filterMap]
    exact List.filterMap_congr fun m _ => anonymous_find? c m
  have hinterfaces : c.anonymous.completeInterfaces.map CompleteInterfaceFact.interface =
      c.completeInterfaces.map CompleteInterfaceFact.interface := by
    rw [anonymous, List.map_map]
    rfl
  simp only [Plan.assemble, hentries, hinterfaces, List.map_map]
  rfl

/-- **A context resolves as it does without origins.** -/
theorem resolve_anonymous : c.anonymous.resolve settings catalog = c.resolve settings catalog := by
  simp only [resolve, validate, graph_anonymous, problems_anonymous, assemble_anonymous]
  rfl

end Resolve

end Context

theorem Fact.map_anonymous_eq {facts facts' : List Fact} (h : List.Forall₂ Fact.SameButOrigin facts facts') :
    facts.map Fact.anonymous = facts'.map Fact.anonymous := by
  induction h with
  | nil => rfl
  | cons hx _ ih => rw [List.map_cons, List.map_cons, hx.anonymous_eq, ih]

/-- **Provenance never influences resolution.** Facts that differ in their origins only, one by one, have the same plan for a
target or the same problems. -/
theorem resolve_ignores_origins (settings : Settings) (catalog : Catalog) (target : TypeRef) {facts facts' : List Fact}
    (h : List.Forall₂ Fact.SameButOrigin facts facts') :
    resolve settings catalog target facts = resolve settings catalog target facts' := by
  have hown : ∀ l : List Fact, resolve settings catalog target l =
      (Context.build settings target (l.map Fact.anonymous)).resolve settings catalog := by
    intro l
    rw [Context.build_anonymous, Context.resolve_anonymous]
    rfl
  rw [hown facts, hown facts', Fact.map_anonymous_eq h]

/-- a cache is replaced by a later one, which joins the logging as a dependency; all facts but one come from one place -/
def tracedFacts (origin : Option String) : List Fact :=
  [.mixin { mixin := ⟨"Cache", []⟩, origin },
   .mixin { mixin := ⟨"Logging", []⟩, suppresses := .ofList [⟨"Cache", []⟩], origin },
   .mixin { mixin := ⟨"Cache", []⟩, origin := some "defaults" },
   .mixin { mixin := ⟨"Logging", []⟩, dependencies := [⟨"Cache", []⟩], origin },
   .completeInterface { interface := ⟨"IStore", []⟩, origin }]

/-- the contexts tell the places apart, and the plan is the same -/
theorem tracedFacts_same_plan : List.Forall₂ Fact.SameButOrigin (tracedFacts none) (tracedFacts (some "shop.jar")) ∧
    Context.build {} ⟨"Order", []⟩ (tracedFacts none) ≠ Context.build {} ⟨"Order", []⟩ (tracedFacts (some "shop.jar")) ∧
      ∃ plan, plan.order = [⟨"Logging", []⟩, ⟨"Cache", []⟩] ∧
        resolve {} (.ofList [.ofInterface "IStore"]) ⟨"Order", []⟩ (tracedFacts none) = .ok plan ∧
        resolve {} (.ofList [.ofInterface "IStore"]) ⟨"Order", []⟩ (tracedFacts (some "shop.jar")) = .ok plan := by
  have hsame : List.Forall₂ Fact.SameButOrigin (tracedFacts none) (tracedFacts (some "shop.jar")) := by
    refine .cons (.mixin _ _) (.cons (.mixin _ _) (.cons (.mixin _ _) (.cons (.mixin _ _) (.cons ?_ .nil))))
    exact .completeInterface _ _
  obtain ⟨plan, horder, hplan⟩ : ∃ plan, plan.order = [⟨"Logging", []⟩, ⟨"Cache", []⟩] ∧
      resolve {} (.ofList [.ofInterface "IStore"]) ⟨"Order", []⟩ (tracedFacts none) = .ok plan := ⟨_, rfl, rfl⟩
  refine ⟨hsame, by decide, plan, horder, hplan, ?_⟩
  rw [← resolve_ignores_origins {} (.ofList [.ofInterface "IStore"]) ⟨"Order", []⟩ hsame, hplan]

end MixinPlanner
