/-
What is written is read back: plans, batches, and the records of fact streams.

The types here are put together from those of `Faithful`, and so are their lemmas. `written_values_read_back` collects the
round trips of everything that is stored or reported.
-/
import Mathlib.Tactic
import MixinPlanner.Proofs.Faithful
import MixinPlanner.Stream.Facts

namespace MixinPlanner

open Wire
open Wire.Record (reads_fieldOr reads_listOr reads_typesOr yields_field yields_fieldOr yields_typesOr)

/-! ## Plans -/

namespace PlannedMixin

/-- references that were read -/
structure Writable (m : PlannedMixin) : Prop where
  mixin : m.mixin.Valid
  dependencies : Legible m.dependencies
  introducedInterfaces : Legible m.introducedInterfaces

theorem faithful : Faithful 2 Writable toJson decode where
  fits m _ := MembersFit.object (by simp [typesJson, typeJson])
  reads m h := by
    refine Record.Reads.decoder (.seq (.seq (.seq (.seq (.map mk ?_) ?_) ?_) ?_) ?_)
    · exact reads_fieldOr (by simp) (reads_typeRef h.mixin)
    · exact reads_fieldOr (by simp) m.kind.reads
    · exact reads_fieldOr (by simp) m.visibility.reads
    · exact reads_typesOr (by simp) h.dependencies
    · exact reads_typesOr (by simp) h.introducedInterfaces
  yields := by
    refine Record.Yields.decoder (.seq (.seq (.seq (.seq (.map (yields_field yields_typeRef) ?_)
      (yields_field (yields_any _))) (yields_field (yields_any _))) (yields_typesOr "dependencies"))
      (yields_typesOr "introducedInterfaces")) _
    exact fun m hm kind _ visibility _ ds hds is his => ⟨hm, hds, his⟩

end PlannedMixin

theorem PlanStatus.reads (s : PlanStatus) : Reads decode (.string s.text) s := by cases s <;> exact reads_named rfl

namespace Plan

/-- references that were read, and a schema of 32 bits -/
structure Writable (p : Plan) : Prop where
  schema : p.schema < 2 ^ 32
  target : p.target.Valid
  mixins : ∀ m ∈ p.mixins, m.Writable
  completeInterfaces : Legible p.completeInterfaces
  warnings : ∀ w ∈ p.warnings, Legible w.references

theorem faithful : Faithful 4 Writable toJson decode where
  fits p h := MembersFit.object (by
    have hschema : (Json.nat p.schema).Fits 3 := Json.fits_nat (by have := h.schema; omega)
    have hmixins := PlannedMixin.faithful.list.fits _ h.mixins
    have hwarnings : ∀ w ∈ p.warnings, w.toJson.Fits 2 :=
      fun w hw => (Warning.faithful.fits w (h.warnings w hw)).mono (by decide)
    simp only [membersFit_append, membersFit_member, membersFit_memberOfList, List.forall_mem_map, Json.fits_string]
    exact ⟨⟨⟨⟨⟨⟨hschema, fits_typeJson 3 p.target⟩, hmixins⟩, fits_typesJson 2 _⟩, trivial⟩, hwarnings⟩, trivial⟩)
  reads p h := by
    refine Record.Reads.decoder (.seq (.seq (.seq (.seq (.seq (.seq (.map mk ?_) ?_) ?_) ?_) ?_) ?_)
      (.map ContentHash.mk ?_))
    · exact reads_fieldOr (by simp) (reads_below h.schema)
    · exact reads_fieldOr (by simp) (reads_typeRef h.target)
    · exact reads_fieldOr (by simp) (PlannedMixin.faithful.list.reads _ h.mixins)
    · exact reads_fieldOr (by simp) (reads_types h.completeInterfaces)
    · exact reads_fieldOr (by simp) p.status.reads
    · exact reads_listOr (by simp) fun w hw => Warning.faithful.reads w (h.warnings w hw)
    · exact reads_fieldOr (by simp) (reads_string p.contentHash.text)
  yields := by
    refine Record.Yields.decoder (.seq (.seq (.seq (.seq (.seq (.seq (.map (yields_field (yields_below _)) ?_)
      (yields_field yields_typeRef)) (yields_field PlannedMixin.faithful.list.yields))
      (yields_typesOr "completeInterfaces")) (yields_field (yields_any _)))
      (yields_fieldOr (by simp) Warning.faithful.list.yields))
      (.map (R := fun _ => True) (yields_field (yields_any _)) fun _ _ => trivial)) _
    exact fun n hn t ht ms hms is his status _ ws hws hash _ => ⟨hn, ht, hms, his, hws⟩

end Plan

/-! ## Batches -/

namespace Configuration

/-- references that were read, and finished facts -/
structure Writable (c : Configuration) : Prop where
  catalog : Legible c.catalog.references
  targets : ∀ e ∈ c.targets.toList, e.1.Valid ∧ ∀ f ∈ e.2, f.Writable

theorem typeKey_text {t : TypeRef} (h : t.Valid) : typeKey t.text = .ok t := by
  rw [typeKey, TypeRef.parse_text t h]

theorem faithful : Faithful 6 Writable toJson decode where
  fits c h := MembersFit.object (by
    simp only [membersFit_append, membersFit_member]
    refine ⟨Catalog.faithful.fits c.catalog h.catalog, Json.fits_object.2 (List.forall_mem_map.2 fun e he => ?_)⟩
    exact (Fact.faithful.list.fits e.2 (h.targets e he).2).mono (by decide))
  reads c h := by
    refine Record.Reads.decoder (.seq (.map mk ?_) ?_)
    · exact reads_fieldOr (by simp) (Catalog.faithful.reads c.catalog h.catalog)
    · exact reads_fieldOr (by simp) (reads_table (fun e he => typeKey_text (h.targets e he).1)
        fun e he => Fact.faithful.list.reads e.2 (h.targets e he).2)
  yields := by
    refine Record.Yields.decoder (.seq (.map (yields_field Catalog.faithful.yields) ?_)
      (yields_field (.table (fun _ _ => yields_typeKey) Fact.faithful.list.yields))) _
    exact fun catalog hcatalog targets htargets => ⟨hcatalog, htargets⟩

end Configuration

namespace Outcome

/-- a plan or problems that can be written -/
def Writable : Outcome → Prop
  | resolved plan => plan.Writable
  | rejected ps => ∀ p ∈ ps, p.Writable
  | deferred => True

theorem fits_toMembers {o : Outcome} (h : o.Writable) : MembersFit 4 o.toMembers := by
  cases o with
  | resolved plan => simp [toMembers, Plan.faithful.fits plan h]
  | rejected ps =>
    have hps := (Problem.faithful.list.fits ps h).mono (show 3 ≤ 4 by decide)
    simpa only [toMembers, membersFit_append, membersFit_member, Json.fits_string, true_and] using hps
  | deferred => simp [toMembers]

theorem faithful : Faithful 5 Writable (fun o => .object o.toMembers) decode where
  fits o h := (fits_toMembers h).object
  reads o h := by
    cases o with
    | resolved plan =>
      refine reads_tagged rfl (by simp) (Record.Reads.decoder (.map resolved ?_))
      exact reads_fieldOr (by simp) (Plan.faithful.reads plan h)
    | rejected ps =>
      refine reads_tagged rfl (by simp) (Record.Reads.decoder (.map rejected ?_))
      exact reads_fieldOr (by simp) (Problem.faithful.list.reads ps h)
    | deferred => exact reads_tagged rfl rfl (reads_nothingMore deferred [])
  yields := by
    refine yields_tagged (List.forall_mem_cons.2 ⟨?_, List.forall_mem_cons.2 ⟨?_, List.forall_mem_singleton.2 ?_⟩⟩)
    · exact Record.Yields.decoder (.map (f := resolved) (yields_field Plan.faithful.yields) fun _ h => h) _
    · exact Record.Yields.decoder (.map (f := rejected) (yields_field Problem.faithful.list.yields) fun _ h => h) _
    · exact yields_nothingMore trivial

end Outcome

namespace TargetReport

/-- a target that was read, and an outcome that can be written -/
structure Writable (t : TargetReport) : Prop where
  target : t.target.Valid
  outcome : t.outcome.Writable

theorem faithful : Faithful 5 Writable toJson decode where
  fits t h := MembersFit.object (by simp [typeJson, Outcome.fits_toMembers h.outcome])
  reads t h := by
    have hfree : valuesAt "target" t.outcome.toMembers = [] := by cases t.outcome <;> simp [Outcome.toMembers]
    exact Record.reads_alongside hfree (reads_typeRef h.target)
      (reads_map (TargetReport.mk t.target) (Outcome.faithful.reads t.outcome h.outcome))
  yields :=
    Record.Yields.alongside (yields_field yields_typeRef) fun _ ht => Outcome.faithful.yields.map fun _ ho => ⟨ht, ho⟩

end TargetReport

namespace BatchSummary

/-- counts of 64 bits -/
structure Writable (s : BatchSummary) : Prop where
  targets : s.targets < 2 ^ 64
  resolved : s.resolved < 2 ^ 64
  rejected : s.rejected < 2 ^ 64
  deferred : s.deferred < 2 ^ 64
  problems : s.problems < 2 ^ 64
  warnings : s.warnings < 2 ^ 64

theorem faithful : Faithful 1 Writable toJson decode where
  fits s h := MembersFit.object (by
    simp [Json.fits_nat h.targets, Json.fits_nat h.resolved, Json.fits_nat h.rejected, Json.fits_nat h.deferred,
      Json.fits_nat h.problems, Json.fits_nat h.warnings])
  reads s h := by
    refine Record.Reads.decoder (.seq (.seq (.seq (.seq (.seq (.map mk ?_) ?_) ?_) ?_) ?_) ?_)
    · exact reads_fieldOr (by simp) (reads_nat64 h.targets)
    · exact reads_fieldOr (by simp) (reads_nat64 h.resolved)
    · exact reads_fieldOr (by simp) (reads_nat64 h.rejected)
    · exact reads_fieldOr (by simp) (reads_nat64 h.deferred)
    · exact reads_fieldOr (by simp) (reads_nat64 h.problems)
    · exact reads_fieldOr (by simp) (reads_nat64 h.warnings)
  yields := by
    refine Record.Yields.decoder (.seq (.seq (.seq (.seq (.seq (.map (yields_field yields_nat64) ?_)
      (yields_field yields_nat64)) (yields_field yields_nat64)) (yields_field yields_nat64))
      (yields_field yields_nat64)) (yields_field yields_nat64)) _
    exact fun a ha b hb c hc d hd e he f hf => ⟨ha, hb, hc, hd, he, hf⟩

end BatchSummary

namespace BatchReport

/-- reports and a summary that can be written -/
structure Writable (r : BatchReport) : Prop where
  targets : ∀ t ∈ r.targets, t.Writable
  summary : r.summary.Writable

theorem fits_strings (n : ℕ) (ss : List String) : (Json.strings ss).Fits (n + 1) :=
  fits_array_map fun s _ => Json.fits_string n s

theorem reads_strings (ss : List String) : Reads (list string) (.strings ss) ss := reads_list fun s _ => reads_string s

theorem faithful : Faithful 7 Writable toJson decode where
  fits r h := MembersFit.object (by
    have htargets := TargetReport.faithful.list.fits _ h.targets
    have hsummary := (BatchSummary.faithful.fits _ h.summary).mono (show 1 ≤ 6 by decide)
    simp only [membersFit_append, membersFit_member, Json.fits_string, true_and]
    exact ⟨⟨⟨fits_strings 5 _, fits_strings 5 _⟩, htargets⟩, hsummary⟩)
  reads r h := by
    refine Record.Reads.decoder (.seq (.seq (.seq (.seq (.seq (.map mk ?_) ?_) ?_) ?_) ?_) ?_)
    · exact reads_fieldOr (by simp) (reads_string r.checkKind)
    · exact reads_fieldOr (by simp) (reads_string r.result)
    · exact reads_fieldOr (by simp) (reads_strings r.failureClasses)
    · exact reads_fieldOr (by simp) (reads_strings r.warningClasses)
    · exact reads_fieldOr (by simp) (TargetReport.faithful.list.reads _ h.targets)
    · exact reads_fieldOr (by simp) (BatchSummary.faithful.reads _ h.summary)
  yields := by
    refine Record.Yields.decoder (.seq (.seq (.seq (.seq (.seq (.map (yields_field (yields_any _)) ?_)
      (yields_field (yields_any _))) (yields_field (yields_any _))) (yields_field (yields_any _)))
      (yields_field TargetReport.faithful.list.yields)) (yields_field BatchSummary.faithful.yields)) _
    exact fun kind _ result _ failures _ warnings _ ts hts s hs => ⟨hts, hs⟩

end BatchReport

/-! ## Records of fact streams -/

namespace FactRecord

/-- a declaration or a finished fact, with references that were read -/
def Writable : FactRecord → Prop
  | type d => Legible d.references
  | fact t f => t.Valid ∧ f.Writable

theorem faithful : Faithful 4 Writable toJson decode where
  fits r h := by
    match r with
    | type d => exact MembersFit.object (by simp [d.fits_toMembers h])
    | fact t (.mixin f) =>
      have hfits : (Json.object (member "type" (.string "mixin") ++ member "target" (typeJson t) ++
        f.toMembers)).Fits 2 := MembersFit.object (by simp [typeJson, f.fits_toMembers])
      exact hfits.mono (by decide)
    | fact t (.completeInterface f) =>
      exact MembersFit.object (by simp [typeJson, CompleteInterfaceFact.toMembers])
  reads r h := by
    match r with
    | type d =>
      exact reads_tagged rfl (by simp [TypeDecl.toMembers]) (reads_map type (TypeDecl.faithful.reads d h))
    | fact t (.mixin f) =>
      obtain ⟨ht, hf⟩ := h
      show Reads decode (.object (member "type" _ ++ (member "target" (typeJson t) ++ f.toMembers))) _
      refine reads_tagged rfl (by simp [MixinFact.toMembers]) ?_
      exact Record.reads_alongside (by simp [MixinFact.toMembers]) (reads_typeRef ht)
        (reads_map (fun f => fact t (.mixin f)) (MixinFact.faithful.reads f (Fact.writable_mixin.1 hf)))
    | fact t (.completeInterface f) =>
      obtain ⟨ht, hf⟩ := h
      show Reads decode (.object (member "type" _ ++ (member "target" (typeJson t) ++ f.toMembers))) _
      refine reads_tagged rfl (by simp [CompleteInterfaceFact.toMembers]) ?_
      exact Record.reads_alongside (by simp [CompleteInterfaceFact.toMembers]) (reads_typeRef ht)
        (reads_map (fun f => fact t (.completeInterface f))
          (CompleteInterfaceFact.faithful.reads f (Fact.writable_completeInterface.1 hf)))
  yields := by
    refine yields_tagged (List.forall_mem_cons.2 ⟨?_, List.forall_mem_cons.2 ⟨?_, List.forall_mem_singleton.2 ?_⟩⟩)
    · exact TypeDecl.faithful.yields.map fun d hd => hd
    · exact Record.Yields.alongside (yields_field yields_typeRef) fun t ht =>
        MixinFact.faithful.yields.map fun f hf => ⟨ht, Fact.writable_mixin.2 hf⟩
    · exact Record.Yields.alongside (yields_field yields_typeRef) fun t ht =>
        CompleteInterfaceFact.faithful.yields.map fun f hf => ⟨ht, Fact.writable_completeInterface.2 hf⟩

end FactRecord

/-! ## Round trips -/

/-- **What is written is read back, and what was read can be written again.** This holds of plans, batch reports,
configurations, catalogs, contexts, facts, records of fact streams, problems and warnings, as long as their references were
read from texts, or made of such by substitution, and their mixin facts were built or read. -/
theorem written_values_read_back :
    (RoundTrip Plan.Writable Plan.toJson Plan.decode ∧
      RoundTrip BatchReport.Writable BatchReport.toJson BatchReport.decode ∧
      RoundTrip Configuration.Writable Configuration.toJson Configuration.decode ∧
      RoundTrip (fun c : Catalog => Legible c.references) Catalog.toJson Catalog.decode ∧
      RoundTrip Context.Writable Context.toJson Context.decode ∧
      RoundTrip Fact.Writable Fact.toJson Fact.decode ∧
      RoundTrip FactRecord.Writable FactRecord.toJson FactRecord.decode ∧
      RoundTrip Problem.Writable Problem.toJson Problem.decode ∧
      RoundTrip (fun w : Warning => Legible w.references) Warning.toJson Warning.decode) ∧
    (∀ t : TypeRef, (∃ s, TypeRef.parse s = .ok t) ↔ t.Valid) ∧
    (∀ (t : TypeRef) (bind : String → Option TypeArg), t.Valid →
      (∀ p a, bind p = some a → TypeRef.ValidArg a) → (t.substitute bind).Valid) ∧
    (∀ f : MixinFact, (∃ g, MixinFact.Drafted g ∧ g.build = some f) ↔ f.Writable) := by
  refine ⟨⟨?_, ?_, ?_, ?_, ?_, ?_, ?_, ?_, ?_⟩, fun t => (TypeRef.valid_iff_parsed t).symm,
    fun t bind h hbind => TypeRef.substitute_valid hbind t h, fun f => f.writable_iff_built.symm⟩
  · exact Plan.faithful.roundTrip (by decide)
  · exact BatchReport.faithful.roundTrip (by decide)
  · exact Configuration.faithful.roundTrip (by decide)
  · exact Catalog.faithful.roundTrip (by decide)
  · exact Context.faithful.roundTrip (by decide)
  · exact Fact.faithful.roundTrip (by decide)
  · exact FactRecord.faithful.roundTrip (by decide)
  · exact Problem.faithful.roundTrip (by decide)
  · exact Warning.faithful.roundTrip (by decide)

/-- a fact that was declared in a place whose name has quotes, line ends and other controls in it -/
def oddFact : Fact := .mixin {
  mixin := ⟨"Audit", [.param "T"]⟩
  dependencies := [⟨"Log", [.closed ⟨"Shop.Order", []⟩]⟩]
  suppresses := .ofList [⟨"Trace", []⟩]
  origin := some " #\"\\\r\n\x01\u2028\t" }

theorem oddFact_writable : oddFact.Writable := by
  have haudit : TypeRef.Valid ⟨"Audit", [.param "T"]⟩ := ⟨by decide, (by decide : isName "T" = true), trivial⟩
  have horder : TypeRef.Valid ⟨"Shop.Order", []⟩ := ⟨by decide, trivial⟩
  have hlog : TypeRef.Valid ⟨"Log", [.closed ⟨"Shop.Order", []⟩]⟩ := ⟨by decide, horder, trivial⟩
  have htrace : TypeRef.Valid ⟨"Trace", []⟩ := ⟨by decide, trivial⟩
  refine Fact.writable_mixin.2 ⟨(MixinFact.legible_iff _).2 ⟨haudit, ?_, ?_⟩, by decide⟩
  · exact legible_cons.2 ⟨hlog, List.forall_mem_nil _⟩
  · exact legible_cons.2 ⟨htrace, List.forall_mem_nil _⟩

/-- the fact by itself, and in a record about the order that it names -/
theorem oddFact_read_back :
    Wire.decode Fact.decode oddFact.toJson.compact = .ok oddFact ∧
      Wire.decode FactRecord.decode (FactRecord.fact ⟨"Shop.Order", []⟩ oddFact).toJson.compact =
        .ok (.fact ⟨"Shop.Order", []⟩ oddFact) := by
  obtain ⟨⟨-, -, -, -, -, hfacts, hrecords, -⟩, -⟩ := written_values_read_back
  exact ⟨hfacts.read_back _ oddFact_writable, hrecords.read_back _ ⟨⟨by decide, trivial⟩, oddFact_writable⟩⟩

end MixinPlanner
