/-
No mixin depends on itself, and none names a dependency twice, however its fact was come by.

A fact is built step by step, read from a document, or merged in a context from facts that were come by before; `Obtained`
says this. Building and reading end in the same check, merging has none: there the facts that are merged are of one mixin,
and neither has it among its dependencies.

- `judged_build`: building is refused exactly if the mixin is mentioned among the dependencies, and else every dependency is
  listed where it is first mentioned;
- `decode_eq`, `decode_of_parts`: reading is the same check on what a document has in its fields (`Parts`);
- `Obtained.wellFormed`: the three ways together;
- `loopless_build`: so what a graph looks up for a mixin is always another one, and linking refuses no link of a mixin with
  itself.
-/
import MixinPlanner.Proofs.Classification
import MixinPlanner.Proofs.Faithful

namespace MixinPlanner

open Wire
open Wire.Record (field fieldOr map_map map_seq decoder_map)

namespace MixinFact

/-- a finished fact of a mixin for which some dependencies were mentioned: each is listed where it is first mentioned -/
structure Lists (f : MixinFact) (mixin : TypeRef) (mentioned : List TypeRef) : Prop where
  mixin : f.mixin = mixin
  dependencies : f.dependencies = mentioned.eraseDups

/-- finishing a fact of a mixin for which some dependencies were mentioned is refused exactly if it is among them -/
structure Judged {α : Type} (mixin : TypeRef) (mentioned : List TypeRef) (refusal : α) (acceptance : MixinFact → α)
    (result : α) : Prop where
  refused : mixin ∈ mentioned → result = refusal
  accepted : mixin ∉ mentioned → ∃ f, result = acceptance f ∧ f.Lists mixin mentioned

variable {f : MixinFact} {m : TypeRef} {ds : List TypeRef}

theorem Lists.mem_iff (h : f.Lists m ds) : f.mixin ∈ f.dependencies ↔ m ∈ ds := by
  rw [h.mixin, h.dependencies, List.mem_eraseDups]

theorem Lists.nodup (h : f.Lists m ds) : f.dependencies.Nodup := by
  rw [h.dependencies, ← addNew_empty]
  exact addNew_nodup [] ds List.nodup_nil

theorem Lists.build (h : f.Lists m ds) : f.build = if m ∈ ds then none else some f := by
  rw [MixinFact.build]
  exact if_congr h.mem_iff rfl rfl

/-! ## Building -/

/-- one step of the construction of a fact -/
inductive Step where
  | kind (kind : MixinKind)
  | visibility (visibility : Visibility)
  | dependsOn (dependency : TypeRef)
  | suppress (suppressed : TypeRef)
  | origin (text : String)

/-- the dependency that a step mentions -/
def Step.dependency? : Step → Option TypeRef
  | dependsOn dependency => some dependency
  | _ => none

/-- a fact after one step more -/
def take (f : MixinFact) : Step → MixinFact
  | .kind kind => { f with kind }
  | .visibility visibility => { f with visibility }
  | .dependsOn dependency => f.dependsOn dependency
  | .suppress suppressed => f.suppress suppressed
  | .origin text => { f with origin := some text }

/-- a fact under construction: the mixin, and then step after step -/
def draft (mixin : TypeRef) (steps : List Step) : MixinFact := steps.foldl take { mixin }

/-- the dependencies that some steps mention, in their order -/
def mentioned (steps : List Step) : List TypeRef := steps.filterMap Step.dependency?

theorem take_mixin (f : MixinFact) (s : Step) : (f.take s).mixin = f.mixin := by cases s <;> rfl

theorem take_dependencies (f : MixinFact) (s : Step) :
    (f.take s).dependencies = addNew f.dependencies (mentioned [s]) := by cases s <;> rfl

theorem foldl_take (f : MixinFact) (steps : List Step) : (steps.foldl take f).mixin = f.mixin ∧
    (steps.foldl take f).dependencies = addNew f.dependencies (mentioned steps) := by
  induction steps generalizing f with
  | nil => exact ⟨rfl, rfl⟩
  | cons s steps ih =>
    obtain ⟨hmixin, hdependencies⟩ := ih (f.take s)
    refine ⟨hmixin.trans (f.take_mixin s), ?_⟩
    calc ((s :: steps).foldl take f).dependencies
        = addNew (f.take s).dependencies (mentioned steps) := hdependencies
      _ = addNew f.dependencies (mentioned [s] ++ mentioned steps) := by rw [take_dependencies, addNew_append]
      _ = addNew f.dependencies (mentioned (s :: steps)) := by rw [mentioned, mentioned, ← List.filterMap_append]; rfl

theorem draft_lists (m : TypeRef) (steps : List Step) : (draft m steps).Lists m (mentioned steps) := by
  obtain ⟨hmixin, hdependencies⟩ := foldl_take { mixin := m } steps
  exact ⟨hmixin, hdependencies.trans (addNew_empty _)⟩

theorem judged_build (m : TypeRef) (steps : List Step) : Judged m (mentioned steps) none some (draft m steps).build := by
  have hlists := draft_lists m steps
  rw [hlists.build]
  exact ⟨fun h => if_pos h, fun h => ⟨_, if_neg h, hlists⟩⟩

theorem wellFormed_of_build {steps : List Step} (h : (draft m steps).build = some f) : f.WellFormed := by
  obtain ⟨hself, rfl⟩ := build_eq_some.1 h
  exact ⟨(draft_lists m steps).nodup, hself⟩

/-! ## Reading -/

/-- what a document has in the fields of a mixin fact -/
structure Parts where
  mixin : TypeRef
  kind : MixinKind
  visibility : Visibility
  dependencies : List TypeRef
  suppresses : SortedSet TypeRef
  origin : Option String

namespace Parts

/-- the fields as they are, before they are checked -/
def record : Record Parts :=
  Parts.mk <$> field "mixin" typeRef
    <*> fieldOr "kind" (some .extending) MixinKind.decode
    <*> fieldOr "visibility" (some .exposed) Visibility.decode
    <*> fieldOr "dependencies" (some []) (list typeRef)
    <*> fieldOr "suppresses" (some .empty) (set typeRef)
    <*> fieldOr "origin" (some none) (optional string)

/-- the fields in a document -/
def decode : Decoder Parts := record.decoder .ignored

/-- the fact under construction that the fields make -/
def draft (p : Parts) : MixinFact := ofParts p.mixin p.kind p.visibility p.dependencies p.suppresses p.origin

theorem draft_lists (p : Parts) : p.draft.Lists p.mixin p.dependencies := by
  rw [draft, ofParts_eq]
  exact ⟨rfl, addNew_empty p.dependencies⟩

/-- what becomes of the fields -/
def finish (p : Parts) : Except Fault MixinFact :=
  if p.mixin ∈ p.dependencies then .error (.selfDependency p.mixin) else .ok p.draft

end Parts

theorem record_eq : record = Parts.draft <$> Parts.record := by
  simp only [Parts.record, map_seq, map_map]
  rfl

/-- reading a fact is reading its fields and finishing them -/
theorem decode_eq (src : Source) (r : Reading) : decode src r = (Parts.decode src r).bind Parts.finish := by
  rw [decode, record_eq, decoder_map, Parts.decode]
  cases Parts.record.decoder .ignored src r with
  | error fault => rfl
  | ok p =>
    have hbuild := p.draft_lists.build
    simp only [Except.map, bind, Except.bind, Parts.finish]
    split_ifs at hbuild ⊢ with hself
    · simp only [hbuild, p.draft_lists.mixin]
    · simp only [hbuild]

theorem Parts.judged (p : Parts) :
    Judged p.mixin p.dependencies (.error (.selfDependency p.mixin)) .ok p.finish :=
  ⟨fun h => if_pos h, fun h => ⟨_, if_neg h, p.draft_lists⟩⟩

theorem decode_of_parts {src : Source} {r : Reading} {p : Parts} (h : Parts.decode src r = .ok p) :
    decode src r = p.finish := by
  rw [decode_eq, h]
  rfl

/-- a whole text is finished like a part of it -/
theorem read_of_parts {text : String} {p : Parts} (h : Wire.decode Parts.decode text = .ok p) :
    Wire.decode decode text = p.finish := by
  obtain ⟨hp, hend⟩ := decode_eq_ok.1 h
  rw [Wire.decode_eq, decode_of_parts hp, hend]
  cases p.finish <;> rfl

/-! ## Obtaining -/

/-- the ways to come by a fact -/
inductive Obtained : MixinFact → Prop
  /-- it was built step by step -/
  | built {m : TypeRef} {steps : List Step} {f : MixinFact} (h : (draft m steps).build = some f) : Obtained f
  /-- it was read from a document, or from what a document has in some place -/
  | read {src : Source} {r : Reading} {f : MixinFact} (h : decode src r = .ok f) : Obtained f
  /-- it is the fact of an entry of a context of facts that were come by before -/
  | merged (settings : Settings) (target : TypeRef) {facts : List Fact} {e : MixinEntry}
      (hfacts : ∀ f, .mixin f ∈ facts → Obtained f) (he : e ∈ (Context.build settings target facts).mixins) :
      Obtained e.fact

theorem finished_of_mixins {facts : List Fact} (h : ∀ f, .mixin f ∈ facts → f.WellFormed) : Finished facts := by
  intro x hx
  cases x with
  | mixin f => exact h f hx
  | completeInterface f => trivial

theorem Obtained.wellFormed {f : MixinFact} (h : Obtained f) : f.WellFormed := by
  induction h with
  | built h => exact wellFormed_of_build h
  | read h => exact (faithful.yields _ _ _ h).wellFormed
  | merged settings target _ he ih =>
    -- the facts of the context are finished, and merging keeps that
    exact Context.wellFormed_of_mem_build settings target _ (finished_of_mixins ih) he

end MixinFact

/-! ## Graphs -/

namespace DependencyGraph

/-- no mixin of a context is joined to itself in its graph, and none was to be -/
structure Loopless (catalog : Catalog) (c : Context) (g : DependencyGraph) : Prop where
  edges : ∀ e ∈ g.edges, e.dependent ≠ e.dependency
  successors : ∀ i, i ∉ g.successors i
  /-- what is looked up for a dependency is never the mixin that has it, so linking has nothing to refuse -/
  found : ∀ k ∈ c.calls, ¬ (bare c).Finds catalog k k.position

variable {c : Context}

theorem not_finds_itself {catalog : Catalog} (hn : c.mixinTypes.Nodup) {k : Call} (hk : k ∈ c.calls)
    (hne : k.mixin ≠ k.dependency) : ¬ (bare c).Finds catalog k k.position := by
  rintro ⟨origin, hfound⟩
  have hlink : (bare c).found? catalog k = some ⟨k.position, k.position, origin⟩ := by rw [found?, hfound]
  obtain ⟨e, he, hother⟩ := found_other hn hk hne hlink
  exact (admits_of_edge he hother).1 rfl

theorem loopless_build (settings : Settings) (catalog : Catalog) (hn : c.mixinTypes.Nodup)
    (hw : ∀ e ∈ c.mixins, e.fact.WellFormed) : Loopless catalog c (build settings catalog c) := by
  have hclassifies : Classifies settings catalog c (fun k => fate settings catalog c k.mixin k.dependency)
      (build settings catalog c) := classifies_build hn hw
  refine ⟨fun e he => ?_, fun i hi => ?_, fun k hk => ?_⟩
  · rw [hclassifies.edges] at he
    obtain ⟨k, hk, hfate⟩ := List.mem_filterMap.1 (mem_of_mem_eraseDupsBy _ he)
    exact (hclassifies.kept k hk e (Fate.edge?_eq_some.1 hfate)).2.1
  · exact ((linked_build settings catalog c).leads ((mem_successors ..).1 hi)).1 rfl
  · exact not_finds_itself hn hk (mixin_ne_dependency hw hk)

end DependencyGraph

/-! ## All the ways -/

namespace MixinFact

/-- **No mixin depends on itself.** However a fact was come by, it lists no dependency twice, and its mixin is not among
them. Building a fact, or reading one whose fields can be read, is refused exactly if the mixin is mentioned among the
dependencies, and else they are listed where they are first mentioned; so it is with the declarations that are merged in a
context. And in the graph of such a context no mixin is joined to itself, nor was any found to be its own dependency. -/
theorem no_self_dependency :
    (∀ f, Obtained f → f.dependencies.Nodup ∧ f.mixin ∉ f.dependencies) ∧
      (∀ m steps, Judged m (mentioned steps) none some (draft m steps).build) ∧
      (∀ src r p, Parts.decode src r = .ok p →
        Judged p.mixin p.dependencies (.error (.selfDependency p.mixin)) .ok (decode src r)) ∧
      (∀ text p, Wire.decode Parts.decode text = .ok p →
        Judged p.mixin p.dependencies (.error (.selfDependency p.mixin)) .ok (Wire.decode decode text)) ∧
      ∀ built target facts, (∀ f, .mixin f ∈ facts → Obtained f) →
        (∀ e ∈ (Context.build built target facts).mixins, e.fact.Lists e.mixin
          ((declaredSince built.suppressDefinitions facts e.mixin).flatMap fun d => d.1.dependencies)) ∧
        ∀ settings catalog, DependencyGraph.Loopless catalog (.build built target facts)
          (.build settings catalog (.build built target facts)) := by
  refine ⟨fun f hf => ⟨hf.wellFormed.nodup, hf.wellFormed.not_self⟩, judged_build, fun src r p hp => ?_,
    fun text p hp => ?_, fun built target facts hfacts => ?_⟩
  · rw [decode_of_parts hp]
    exact p.judged
  · rw [read_of_parts hp]
    exact p.judged
  · have hf := finished_of_mixins fun f hf => (hfacts f hf).wellFormed
    refine ⟨fun e he => ⟨rfl, (Context.describes_of_mem built target facts hf he).dependencies⟩,
      fun settings catalog => ?_⟩
    refine DependencyGraph.loopless_build settings catalog (Context.mixins_nodup built target facts) fun e he => ?_
    exact Context.wellFormed_of_mem_build built target facts hf he

/-- a construction that mentions a dependency twice -/
def auditSteps : List Step :=
  [.dependsOn ⟨"Log", []⟩, .kind .used, .dependsOn ⟨"Clock", []⟩, .suppress ⟨"Trace", []⟩, .dependsOn ⟨"Log", []⟩]

/-- a document about the same mixin -/
def auditDocument (dependencies : List String) : Json :=
  .object [("mixin", .string "Audit"), ("dependencies", .array (dependencies.map .string))]

theorem fits_auditDocument (dependencies : List String) : (auditDocument dependencies).Fits 2 := by
  have hlist : (Json.array (dependencies.map .string)).Fits 1 := fits_array_map fun name _ => Json.fits_string 0 name
  exact MembersFit.object (List.forall_mem_cons.2 ⟨Json.fits_string 1 "Audit", List.forall_mem_singleton.2 hlist⟩)

/-- one fact is built, one is read, one is refused; the two are merged around a fact about a mixin that they depend on -/
theorem audit_merged :
    let audit : TypeRef := ⟨"Audit", []⟩
    let read : MixinFact := { mixin := audit, dependencies := [⟨"Store", []⟩, ⟨"Clock", []⟩] }
    ∃ built log, (draft audit auditSteps).build = some built ∧ (draft ⟨"Log", []⟩ []).build = some log ∧
      Wire.decode decode (auditDocument ["Store", "Clock", "Store"]).compact = .ok read ∧
      Wire.decode decode (auditDocument ["Store", "Audit"]).compact = .error (.selfDependency audit) ∧
      let context : Context := .build {} ⟨"Shop", []⟩ [.mixin built, .mixin log, .mixin read]
      let graph : DependencyGraph := .build { strictDependencies := false } (.ofList []) context
      context.mixins.map (fun e => e.fact.dependencies) = [[⟨"Log", []⟩, ⟨"Clock", []⟩, ⟨"Store", []⟩], []] ∧
        graph.edges = [⟨audit, ⟨"Log", []⟩, .explicit⟩] ∧ DependencyGraph.Loopless (.ofList []) context graph := by
  intro audit read
  obtain ⟨-, -, -, htext, hcontext⟩ := no_self_dependency
  have hbuilt : (draft audit auditSteps).build = some (draft audit auditSteps) := by decide
  have hlog : (draft ⟨"Log", []⟩ []).build = some (draft ⟨"Log", []⟩ []) := by decide
  have hread : Wire.decode decode (auditDocument ["Store", "Clock", "Store"]).compact = .ok read := by
    rw [decode_compact _ (fits_auditDocument _) (by decide)]
    rfl
  have hparts : Wire.decode Parts.decode (auditDocument ["Store", "Audit"]).compact =
      .ok ⟨audit, .extending, .exposed, [⟨"Store", []⟩, audit], .empty, none⟩ := by
    rw [decode_compact _ (fits_auditDocument _) (by decide)]
    rfl
  refine ⟨_, _, hbuilt, hlog, hread, (htext _ _ hparts).refused (by decide), by decide, by decide, ?_⟩
  refine (hcontext {} ⟨"Shop", []⟩ _ fun f hf => ?_).2 { strictDependencies := false } (.ofList [])
  simp only [List.mem_cons, List.not_mem_nil, or_false, Fact.mixin.injEq] at hf
  rcases hf with rfl | rfl | rfl
  · exact .built hbuilt
  · exact .built hlog
  · exact .read (decode_eq_ok.1 hread).1

end MixinFact

end MixinPlanner
