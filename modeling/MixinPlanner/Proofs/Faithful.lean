/-
Which values can be written, and that their written forms are read as them: facts, problems, contexts and catalogs.

`Faithful` says that a written form and a decoder agree on the values with a property: each is read back from its written
form, and nothing else is ever read. For every type the property, `Writable` where it is more than that its references are
legible, says that type references were read from texts, that mixin facts are finished, and that counts and positions are
numbers of 64 bits.
- `MixinFact.faithful`, `Problem.faithful`, `Context.faithful` and so on: one such lemma for each type, from those of its
  parts;
- `MixinFact.writable_iff_built`: the mixin facts that can be written are those that can be built step by step;
- `Faithful.roundTrip`: what is faithfully written is read back from its compact text, and what was read from any text can
  be written again.
-/
import Mathlib.Tactic
import MixinPlanner.Proofs.Decoding
import MixinPlanner.Proofs.WrittenForm

namespace MixinPlanner

open Wire
open Wire.Record (reads_fieldOr reads_listOr reads_setOr reads_textOr yields_field yields_fieldOr)

/-! ## Written form and decoder -/

/-- a written form, nested so many levels deep, and a decoder agree on the values with a property -/
structure Faithful {α : Type} (n : ℕ) (P : α → Prop) (write : α → Json) (d : Decoder α) : Prop where
  fits : ∀ a, P a → (write a).Fits n
  reads : ∀ a, P a → Reads d (write a) a
  yields : Yields d P

/-- values with a property are read back from their compact texts, and so is whatever was read from any text -/
structure RoundTrip {α : Type} (P : α → Prop) (write : α → Json) (d : Decoder α) : Prop where
  read_back : ∀ a, P a → decode d (write a).compact = .ok a
  rewritten : ∀ text a, decode d text = .ok a → decode d (write a).compact = .ok a

theorem yields_decode {α : Type} {P : α → Prop} {d : Decoder α} (h : Yields d P) {text : String} {a : α}
    (ha : decode d text = .ok a) : P a := h _ _ _ (decode_eq_ok.1 ha).1

theorem Faithful.roundTrip {α : Type} {n : ℕ} {P : α → Prop} {write : α → Json} {d : Decoder α}
    (h : Faithful n P write d) (hn : n ≤ Reading.maxDepth) : RoundTrip P write d := by
  have read_back : ∀ a, P a → decode d (write a).compact = .ok a := by
    intro a ha
    rw [decode_compact d (h.fits a ha) hn, h.reads a ha .text]
  exact ⟨read_back, fun text a ha => read_back a (yields_decode h.yields ha)⟩

theorem legible_iff_valid {ts : List TypeRef} : Legible ts ↔ ∀ t ∈ ts, t.Valid := by
  rw [← legible_map, List.map_id']

namespace Wire

/-- the values of members are nested at most so many levels deep -/
def MembersFit (n : ℕ) (ms : MemberList) : Prop := ∀ m ∈ ms, m.2.Fits n

section MembersFit

variable {n : ℕ}

theorem MembersFit.object {ms : MemberList} (h : MembersFit n ms) : (Json.object ms).Fits (n + 1) := h

@[simp]
theorem membersFit_append {ms ms' : MemberList} : MembersFit n (ms ++ ms') ↔ MembersFit n ms ∧ MembersFit n ms' :=
  List.forall_mem_append

@[simp]
theorem membersFit_member {name : String} {j : Json} : MembersFit n (member name j) ↔ j.Fits n :=
  List.forall_mem_singleton

@[simp]
theorem membersFit_memberOfList {name : String} {items : List Json} :
    MembersFit (n + 1) (memberOfList name items) ↔ ∀ j ∈ items, j.Fits n := by
  cases items with
  | nil => simp [memberOfList, MembersFit]
  | cons j js => exact membersFit_member

@[simp]
theorem membersFit_memberOfText {name : String} {s : Option String} : MembersFit n (memberOfText name s) := by
  cases s with
  | none => simp [memberOfText, MembersFit]
  | some s => exact membersFit_member.2 (Json.fits_string n s)

end MembersFit

attribute [simp] Json.fits_string Json.fits_array

theorem fits_array_map {α : Type} {n : ℕ} {write : α → Json} {l : List α} (h : ∀ a ∈ l, (write a).Fits n) :
    (Json.array (l.map write)).Fits (n + 1) := Json.fits_array.2 (List.forall_mem_map.2 h)

theorem fits_typeJson (n : ℕ) (t : TypeRef) : (typeJson t).Fits n := Json.fits_string n t.text

theorem fits_typesJson (n : ℕ) (ts : List TypeRef) : (Json.array (typesJson ts)).Fits (n + 1) :=
  fits_array_map fun t _ => fits_typeJson n t

theorem reads_types {ts : List TypeRef} (h : Legible ts) : Reads (list typeRef) (.array (typesJson ts)) ts :=
  reads_list fun t ht => reads_typeRef (legible_iff_valid.1 h t ht)

theorem yields_types : Yields (list typeRef) Legible := yields_typeRef.list.mono fun _ => legible_iff_valid.2

/-- type references that are left out when there are none -/
theorem Record.reads_typesOr {name : String} {ms : MemberList} {ts : List TypeRef}
    (hv : valuesAt name ms = valuesAt name (memberOfList name (typesJson ts))) (h : Legible ts) :
    (fieldOr name (some []) (list typeRef)).Reads ms ts :=
  reads_listOr hv fun t ht => reads_typeRef (legible_iff_valid.1 h t ht)

theorem Record.yields_typesOr (name : String) : (fieldOr name (some []) (list typeRef)).Yields Legible :=
  yields_fieldOr (by simp [Legible]) yields_types

theorem reads_nat64 {n : ℕ} (h : n < 2 ^ 64) : Reads nat64 (.nat n) n := reads_below h

theorem yields_nat64 : Yields nat64 fun n => n < 2 ^ 64 := yields_below _

end Wire

open Wire.Record (reads_typesOr yields_typesOr)

/-! ## Facts -/

theorem MixinKind.reads (k : MixinKind) : Reads decode (.string k.text) k := by cases k <;> exact reads_named rfl

theorem Visibility.reads (v : Visibility) : Reads decode (.string v.text) v := by cases v <;> exact reads_named rfl

theorem Application.faithful : Faithful 1 (fun _ => True) toJson decode where
  fits a _ := MembersFit.object (by simp)
  reads a _ := (Record.Reads.seq (.map mk (reads_fieldOr (by simp) a.kind.reads))
    (reads_fieldOr (by simp) a.visibility.reads)).decoder
  yields := yields_any decode

namespace MixinFact

/-- a finished fact with references that were read -/
structure Writable (f : MixinFact) : Prop where
  legible : Legible f.references
  wellFormed : f.WellFormed

theorem foldl_dependsOn (f : MixinFact) (ds : List TypeRef) :
    ds.foldl dependsOn f = { f with dependencies := addNew f.dependencies ds } := by
  induction ds generalizing f with
  | nil => rfl
  | cons d ds ih => rw [List.foldl_cons, ih]; rfl

/-- dependencies that are not repeated are all added -/
theorem addNew_nil {ds : List TypeRef} (h : ds.Nodup) : addNew [] ds = ds :=
  calc addNew [] ds = ds.eraseDups := addNew_empty ds
    _ = (ds ++ []).eraseDups := by rw [List.append_nil]
    _ = addNew ds [] := (addNew_eq_eraseDups ds [] h).symm

theorem ofParts_eq (m : TypeRef) (k : MixinKind) (v : Visibility) (ds : List TypeRef) (ss : SortedSet TypeRef)
    (o : Option String) : ofParts m k v ds ss o = ⟨m, k, v, addNew [] ds, ss, o⟩ := foldl_dependsOn _ ds

theorem build_eq_some {f g : MixinFact} : f.build = some g ↔ f.mixin ∉ f.dependencies ∧ f = g := by
  unfold build
  split_ifs with h <;> simp [h]

/-- facts under construction: as construction starts, and after each of its steps -/
inductive Drafted : MixinFact → Prop
  | start {m : TypeRef} (hm : m.Valid) : Drafted { mixin := m }
  | kind {f : MixinFact} (h : Drafted f) (kind : MixinKind) : Drafted { f with kind }
  | visibility {f : MixinFact} (h : Drafted f) (visibility : Visibility) : Drafted { f with visibility }
  | origin {f : MixinFact} (h : Drafted f) (text : String) : Drafted { f with origin := some text }
  | dependsOn {f : MixinFact} {d : TypeRef} (h : Drafted f) (hd : d.Valid) : Drafted (f.dependsOn d)
  | suppress {f : MixinFact} {s : TypeRef} (h : Drafted f) (hs : s.Valid) : Drafted (f.suppress s)

/-- no step of a construction repeats a dependency, or brings in a reference that was not read -/
theorem Drafted.inv {f : MixinFact} (h : Drafted f) : Legible f.references ∧ f.dependencies.Nodup := by
  induction h with
  | start hm => exact ⟨(legible_iff _).2 ⟨hm, List.forall_mem_nil _, List.forall_mem_nil _⟩, List.nodup_nil⟩
  | kind _ _ ih => exact ih
  | visibility _ _ ih => exact ih
  | origin _ _ ih => exact ih
  | @dependsOn f d _ hd ih =>
    obtain ⟨hm, hdeps, hs⟩ := (legible_iff f).1 ih.1
    refine ⟨(legible_iff _).2 ⟨hm, fun t ht => ?_, hs⟩, addNew_nodup _ _ ih.2⟩
    rcases (mem_addNew f.dependencies [d] t).1 ht with ht | ht
    · exact hdeps t ht
    · rw [List.mem_singleton.1 ht]
      exact (TypeRef.valid_iff_parsed d).1 hd
  | @suppress f s _ hs ih =>
    obtain ⟨hm, hdeps, hsuppressed⟩ := (legible_iff f).1 ih.1
    refine ⟨(legible_iff _).2 ⟨hm, hdeps, fun t ht => ?_⟩, ih.2⟩
    rcases SortedBy.mem_insert.1 ht with rfl | ht
    · exact (TypeRef.valid_iff_parsed t).1 hs
    · exact hsuppressed t ht

theorem Drafted.dependsOnAll {f : MixinFact} (h : Drafted f) {ds : List TypeRef} (hds : Legible ds) :
    Drafted (ds.foldl MixinFact.dependsOn f) := by
  induction ds generalizing f with
  | nil => exact h
  | cons d ds ih =>
    obtain ⟨hd, hds⟩ := legible_cons.1 hds
    exact ih (h.dependsOn hd) hds

theorem Drafted.suppressAll {f : MixinFact} (h : Drafted f) {ss : List TypeRef} (hss : Legible ss) :
    Drafted (ss.foldl MixinFact.suppress f) := by
  induction ss generalizing f with
  | nil => exact h
  | cons s ss ih =>
    obtain ⟨hs, hss⟩ := legible_cons.1 hss
    exact ih (h.suppress hs) hss

theorem foldl_suppress (f : MixinFact) (ss : List TypeRef) :
    ss.foldl suppress f = { f with suppresses := f.suppresses.insertAll ss } := by
  induction ss generalizing f with
  | nil => rfl
  | cons s ss ih => rw [List.foldl_cons, ih]; rfl

/-- the facts that can be written are those that can be built -/
theorem writable_iff_built (f : MixinFact) : f.Writable ↔ ∃ g, Drafted g ∧ g.build = some f := by
  constructor
  · intro h
    obtain ⟨hm, hd, hs⟩ := (legible_iff f).1 h.legible
    have hdraft := (((Drafted.start hm).kind f.kind).visibility f.visibility).dependsOnAll hd |>.suppressAll hs
    have hparts : f.suppresses.toList.foldl suppress (f.dependencies.foldl dependsOn
        { mixin := f.mixin, kind := f.kind, visibility := f.visibility }) = { f with origin := none } := by
      have hset : SortedBy.empty.insertAll f.suppresses.toList = f.suppresses := f.suppresses.ofList_toList
      rw [foldl_dependsOn, foldl_suppress, addNew_nil h.wellFormed.nodup, hset]
    rw [hparts] at hdraft
    refine ⟨f, ?_, build_eq_some.2 ⟨h.wellFormed.not_self, rfl⟩⟩
    cases horigin : f.origin with
    | none => rwa [← horigin] at hdraft
    | some text =>
      have horiginal : { { f with origin := none } with origin := some text } = f := by rw [← horigin]
      exact horiginal ▸ hdraft.origin text
  · rintro ⟨g, hg, hbuild⟩
    obtain ⟨hself, rfl⟩ := build_eq_some.1 hbuild
    exact ⟨hg.inv.1, hg.inv.2, hself⟩

theorem reads_record {f : MixinFact} (h : f.Writable) : record.Reads f.toMembers f := by
  obtain ⟨hm, hd, hs⟩ := (legible_iff f).1 h.legible
  have hparts : ofParts f.mixin f.kind f.visibility f.dependencies f.suppresses f.origin = f := by
    rw [ofParts_eq, addNew_nil h.wellFormed.nodup]
  have hread : record.Reads f.toMembers
      (ofParts f.mixin f.kind f.visibility f.dependencies f.suppresses f.origin) := by
    refine .seq (.seq (.seq (.seq (.seq (.map ofParts ?_) ?_) ?_) ?_) ?_) ?_
    · exact reads_fieldOr (by simp [toMembers]) (reads_typeRef hm)
    · exact reads_fieldOr (by simp [toMembers]) f.kind.reads
    · exact reads_fieldOr (by simp [toMembers]) f.visibility.reads
    · exact reads_typesOr (by simp [toMembers]) hd
    · exact reads_setOr (by simp [toMembers, typesJson]) fun t ht => reads_typeRef (legible_iff_valid.1 hs t ht)
    · exact reads_textOr (by simp [toMembers])
  rwa [hparts] at hread

theorem yields_record : record.Yields fun f => Legible f.references ∧ f.dependencies.Nodup := by
  refine .seq (.seq (.seq (.seq (.seq (.map (yields_field yields_typeRef) ?_)
    (yields_fieldOr (by simp) (yields_any _))) (yields_fieldOr (by simp) (yields_any _)))
    (yields_typesOr "dependencies")) (yields_fieldOr ?_ yields_typeRef.set)) (yields_fieldOr (by simp) (yields_any _))
  · intro m hm k _ v _ ds hds ss hss o _
    rw [ofParts_eq]
    refine ⟨(legible_iff _).2 ⟨hm, fun t ht => ?_, legible_iff_valid.2 hss⟩, addNew_nodup [] ds List.nodup_nil⟩
    exact hds t (((mem_addNew [] ds t).1 ht).resolve_left List.not_mem_nil)
  · rintro _ ⟨⟩ t ht
    cases ht

theorem fits_toMembers (f : MixinFact) : MembersFit 1 f.toMembers := by
  simp [toMembers, typesJson, typeJson]

theorem faithful : Faithful 2 Writable toJson decode where
  fits f _ := f.fits_toMembers.object
  reads f h src := by
    have hbuild : f.build = some f := build_eq_some.2 ⟨h.wellFormed.not_self, rfl⟩
    rw [decode, toJson, (reads_record h).decoder src]
    simp only [bind, Except.bind, hbuild]
  yields src r f hf := by
    obtain ⟨g, hg, hf⟩ := TypeRef.bind_eq_ok hf
    obtain ⟨hlegible, hnodup⟩ := yields_record.decoder _ src r g hg
    split at hf
    next f' hbuild =>
      cases hf
      obtain ⟨hself, rfl⟩ := build_eq_some.1 hbuild
      exact ⟨hlegible, hnodup, hself⟩
    next => cases hf

end MixinFact

namespace CompleteInterfaceFact

theorem faithful : Faithful 2 (fun f => f.interface.Valid) toJson decode where
  fits f _ := MembersFit.object (by simp [toMembers, typeJson])
  reads f h := (Record.Reads.seq (.map mk (reads_fieldOr (by simp [toMembers]) (reads_typeRef h)))
    (reads_textOr (by simp [toMembers]))).decoder
  yields := by
    refine Record.Yields.decoder (.seq (.map (yields_field yields_typeRef) ?_)
      (yields_fieldOr (by simp) (yields_any _))) _
    exact fun i hi o _ => hi

end CompleteInterfaceFact

namespace Fact

/-- a finished fact with references that were read -/
structure Writable (f : Fact) : Prop where
  legible : Legible f.references
  wellFormed : f.WellFormed

theorem writable_mixin {f : MixinFact} : Writable (.mixin f) ↔ f.Writable := ⟨fun h => ⟨h.1, h.2⟩, fun h => ⟨h.1, h.2⟩⟩

theorem writable_completeInterface {f : CompleteInterfaceFact} : Writable (.completeInterface f) ↔ f.interface.Valid :=
  ⟨fun h => (legible_cons.1 h.1).1, fun h => ⟨legible_cons.2 ⟨h, List.forall_mem_nil _⟩, trivial⟩⟩

theorem faithful : Faithful 2 Writable toJson decode where
  fits f _ := by
    cases f with
    | mixin f => exact MembersFit.object (by simp [f.fits_toMembers])
    | completeInterface f => exact MembersFit.object (by simp [CompleteInterfaceFact.toMembers, typeJson])
  reads f h := by
    cases f with
    | mixin f =>
      exact reads_tagged rfl (by simp [MixinFact.toMembers])
        (reads_map Fact.mixin (MixinFact.faithful.reads f (writable_mixin.1 h)))
    | completeInterface f =>
      exact reads_tagged rfl (by simp [CompleteInterfaceFact.toMembers])
        (reads_map Fact.completeInterface (CompleteInterfaceFact.faithful.reads f (writable_completeInterface.1 h)))
  yields := by
    refine yields_tagged (List.forall_mem_cons.2 ⟨?_, List.forall_mem_singleton.2 ?_⟩)
    · exact MixinFact.faithful.yields.map fun f => writable_mixin.2
    · exact CompleteInterfaceFact.faithful.yields.map fun f => writable_completeInterface.2

end Fact

/-! ## Problems and warnings -/

namespace Problem

/-- references that were read, and positions and counts of 64 bits -/
def Writable : Problem → Prop
  | conflictingApplication t m _ _ i j => t.Valid ∧ m.Valid ∧ i < 2 ^ 64 ∧ j < 2 ^ 64
  | invalidArguments t m e a _ => t.Valid ∧ m.Valid ∧ e < 2 ^ 64 ∧ a < 2 ^ 64
  | unsatisfiedDependency t m d => t.Valid ∧ m.Valid ∧ d.Valid
  | ambiguousDependency t m d cs => t.Valid ∧ m.Valid ∧ d.Valid ∧ Legible cs
  | cyclicDependency t cycle => t.Valid ∧ Legible cycle
  | unsatisfiableInterface t i _ => t.Valid ∧ i.Valid

theorem reads {p : Problem} (h : p.Writable) : Reads decode p.toJson p := by
  cases p with
  | conflictingApplication t m a b i j =>
    obtain ⟨ht, hm, hi, hj⟩ := h
    refine reads_tagged rfl (by simp [toMembers]) (Record.Reads.decoder ?_)
    refine .seq (.seq (.seq (.seq (.seq (.map conflictingApplication ?_) ?_) ?_) ?_) ?_) ?_
    · exact reads_fieldOr (by simp [toMembers]) (reads_typeRef ht)
    · exact reads_fieldOr (by simp [toMembers]) (reads_typeRef hm)
    · exact reads_fieldOr (by simp [toMembers]) (Application.faithful.reads a trivial)
    · exact reads_fieldOr (by simp [toMembers]) (Application.faithful.reads b trivial)
    · exact reads_fieldOr (by simp [toMembers]) (reads_nat64 hi)
    · exact reads_fieldOr (by simp [toMembers]) (reads_nat64 hj)
  | invalidArguments t m e a reason =>
    obtain ⟨ht, hm, he, ha⟩ := h
    refine reads_tagged rfl (by simp [toMembers]) (Record.Reads.decoder ?_)
    refine .seq (.seq (.seq (.seq (.map invalidArguments ?_) ?_) ?_) ?_) ?_
    · exact reads_fieldOr (by simp [toMembers]) (reads_typeRef ht)
    · exact reads_fieldOr (by simp [toMembers]) (reads_typeRef hm)
    · exact reads_fieldOr (by simp [toMembers]) (reads_nat64 he)
    · exact reads_fieldOr (by simp [toMembers]) (reads_nat64 ha)
    · exact reads_fieldOr (by simp [toMembers]) (reads_string reason)
  | unsatisfiedDependency t m d =>
    obtain ⟨ht, hm, hd⟩ := h
    refine reads_tagged rfl (by simp [toMembers]) (Record.Reads.decoder ?_)
    refine .seq (.seq (.map unsatisfiedDependency ?_) ?_) ?_
    · exact reads_fieldOr (by simp [toMembers]) (reads_typeRef ht)
    · exact reads_fieldOr (by simp [toMembers]) (reads_typeRef hm)
    · exact reads_fieldOr (by simp [toMembers]) (reads_typeRef hd)
  | ambiguousDependency t m d cs =>
    obtain ⟨ht, hm, hd, hcs⟩ := h
    refine reads_tagged rfl (by simp [toMembers]) (Record.Reads.decoder ?_)
    refine .seq (.seq (.seq (.map ambiguousDependency ?_) ?_) ?_) ?_
    · exact reads_fieldOr (by simp [toMembers]) (reads_typeRef ht)
    · exact reads_fieldOr (by simp [toMembers]) (reads_typeRef hm)
    · exact reads_fieldOr (by simp [toMembers]) (reads_typeRef hd)
    · exact reads_fieldOr (by simp [toMembers]) (reads_types hcs)
  | cyclicDependency t cycle =>
    obtain ⟨ht, hcycle⟩ := h
    refine reads_tagged rfl (by simp [toMembers]) (Record.Reads.decoder ?_)
    refine .seq (.map cyclicDependency ?_) ?_
    · exact reads_fieldOr (by simp [toMembers]) (reads_typeRef ht)
    · exact reads_fieldOr (by simp [toMembers]) (reads_types hcycle)
  | unsatisfiableInterface t i reason =>
    obtain ⟨ht, hi⟩ := h
    refine reads_tagged rfl (by simp [toMembers]) (Record.Reads.decoder ?_)
    refine .seq (.seq (.map unsatisfiableInterface ?_) ?_) ?_
    · exact reads_fieldOr (by simp [toMembers]) (reads_typeRef ht)
    · exact reads_fieldOr (by simp [toMembers]) (reads_typeRef hi)
    · exact reads_fieldOr (by simp [toMembers]) (reads_string reason)

theorem yields : Yields decode Writable := by
  refine yields_tagged ?_
  simp only [List.forall_mem_cons, List.not_mem_nil, false_implies, implies_true, and_true]
  refine ⟨?_, ?_, ?_, ?_, ?_, ?_⟩
  · refine Record.Yields.decoder (.seq (.seq (.seq (.seq (.seq (.map (yields_field yields_typeRef) ?_)
      (yields_field yields_typeRef)) (yields_field (yields_any _))) (yields_field (yields_any _)))
      (yields_field yields_nat64)) (yields_field yields_nat64)) _
    exact fun t ht m hm a _ b _ i hi j hj => ⟨ht, hm, hi, hj⟩
  · refine Record.Yields.decoder (.seq (.seq (.seq (.seq (.map (yields_field yields_typeRef) ?_)
      (yields_field yields_typeRef)) (yields_field yields_nat64)) (yields_field yields_nat64))
      (yields_field (yields_any _))) _
    exact fun t ht m hm e he a ha reason _ => ⟨ht, hm, he, ha⟩
  · refine Record.Yields.decoder (.seq (.seq (.map (yields_field yields_typeRef) ?_) (yields_field yields_typeRef))
      (yields_field yields_typeRef)) _
    exact fun t ht m hm d hd => ⟨ht, hm, hd⟩
  · refine Record.Yields.decoder (.seq (.seq (.seq (.map (yields_field yields_typeRef) ?_)
      (yields_field yields_typeRef)) (yields_field yields_typeRef)) (yields_field yields_types)) _
    exact fun t ht m hm d hd cs hcs => ⟨ht, hm, hd, hcs⟩
  · refine Record.Yields.decoder (.seq (.map (yields_field yields_typeRef) ?_) (yields_field yields_types)) _
    exact fun t ht cycle hcycle => ⟨ht, hcycle⟩
  · refine Record.Yields.decoder (.seq (.seq (.map (yields_field yields_typeRef) ?_) (yields_field yields_typeRef))
      (yields_field (yields_any _))) _
    exact fun t ht i hi reason _ => ⟨ht, hi⟩

theorem faithful : Faithful 2 Writable toJson decode where
  fits p h := by
    cases p with
    | conflictingApplication t m a b i j =>
      obtain ⟨-, -, hi, hj⟩ := h
      exact MembersFit.object (by simp [toMembers, typeJson, Application.faithful.fits, Json.fits_nat hi, Json.fits_nat hj])
    | invalidArguments t m e a reason =>
      obtain ⟨-, -, he, ha⟩ := h
      exact MembersFit.object (by simp [toMembers, typeJson, Json.fits_nat he, Json.fits_nat ha])
    | unsatisfiedDependency | ambiguousDependency | cyclicDependency | unsatisfiableInterface =>
      exact MembersFit.object (by simp [toMembers, typesJson, typeJson])
  reads _ := reads
  yields := yields

end Problem

namespace Warning

theorem faithful : Faithful 1 (fun w => Legible w.references) toJson decode where
  fits w _ := by cases w <;> exact MembersFit.object (by simp [typeJson])
  reads w h := by
    cases w with
    | unusedSuppression m s =>
      obtain ⟨hm, hs⟩ := legible_cons.1 h
      show Reads decode (.object (member "class" _ ++
        (member "suppressor" (typeJson m) ++ member "suppressed" (typeJson s)))) _
      refine reads_tagged rfl (by simp) (Record.Reads.decoder (.seq (.map unusedSuppression ?_) ?_))
      · exact reads_fieldOr (by simp) (reads_typeRef hm)
      · exact reads_fieldOr (by simp) (reads_typeRef (legible_cons.1 hs).1)
    | ignoredDependency m d =>
      obtain ⟨hm, hd⟩ := legible_cons.1 h
      show Reads decode (.object (member "class" _ ++
        (member "mixin" (typeJson m) ++ member "dependency" (typeJson d)))) _
      refine reads_tagged rfl (by simp) (Record.Reads.decoder (.seq (.map ignoredDependency ?_) ?_))
      · exact reads_fieldOr (by simp) (reads_typeRef hm)
      · exact reads_fieldOr (by simp) (reads_typeRef (legible_cons.1 hd).1)
  yields := by
    refine yields_tagged (List.forall_mem_cons.2 ⟨?_, List.forall_mem_singleton.2 ?_⟩)
    all_goals
      refine Record.Yields.decoder (.seq (.map (yields_field yields_typeRef) ?_) (yields_field yields_typeRef)) _
      exact fun m hm o ho => legible_cons.2 ⟨hm, legible_cons.2 ⟨ho, List.forall_mem_nil _⟩⟩

end Warning

/-! ## Contexts -/

namespace MixinEntry

/-- a fact that can be written, in a position of 64 bits -/
structure Writable (e : MixinEntry) : Prop where
  fact : e.fact.Writable
  declarationIndex : e.declarationIndex < 2 ^ 64

theorem faithful : Faithful 3 Writable toJson decode where
  fits e h := MembersFit.object (by simp [MixinFact.faithful.fits _ h.fact, Json.fits_nat h.declarationIndex])
  reads e h := by
    refine Record.Reads.decoder (.seq (.map mk ?_) ?_)
    · exact reads_fieldOr (by simp) (MixinFact.faithful.reads _ h.fact)
    · exact reads_fieldOr (by simp) (reads_nat64 h.declarationIndex)
  yields := by
    refine Record.Yields.decoder (.seq (.map (yields_field MixinFact.faithful.yields) ?_)
      (yields_field yields_nat64)) _
    exact fun f hf n hn => ⟨hf, hn⟩

end MixinEntry

namespace MixinConflict

/-- a mixin that was read, in positions of 64 bits -/
structure Writable (k : MixinConflict) : Prop where
  mixin : k.mixin.Valid
  firstIndex : k.firstIndex < 2 ^ 64
  secondIndex : k.secondIndex < 2 ^ 64

theorem faithful : Faithful 2 Writable toJson decode where
  fits k h := MembersFit.object (by
    simp [typeJson, Application.faithful.fits, Json.fits_nat h.firstIndex, Json.fits_nat h.secondIndex])
  reads k h := by
    refine Record.Reads.decoder (.seq (.seq (.seq (.seq (.map mk ?_) ?_) ?_) ?_) ?_)
    · exact reads_fieldOr (by simp) (reads_typeRef h.mixin)
    · exact reads_fieldOr (by simp) (Application.faithful.reads _ trivial)
    · exact reads_fieldOr (by simp) (Application.faithful.reads _ trivial)
    · exact reads_fieldOr (by simp) (reads_nat64 h.firstIndex)
    · exact reads_fieldOr (by simp) (reads_nat64 h.secondIndex)
  yields := by
    refine Record.Yields.decoder (.seq (.seq (.seq (.seq (.map (yields_field yields_typeRef) ?_)
      (yields_field (yields_any _))) (yields_field (yields_any _))) (yields_field yields_nat64))
      (yields_field yields_nat64)) _
    exact fun m hm a _ b _ i hi j hj => ⟨hm, hi, hj⟩

end MixinConflict

/-- lists of what is faithfully written -/
theorem Faithful.list {α : Type} {n : ℕ} {P : α → Prop} {write : α → Json} {d : Decoder α} (h : Faithful n P write d) :
    Faithful (n + 1) (fun l => ∀ a ∈ l, P a) (fun l => .array (l.map write)) (Wire.list d) where
  fits _ hl := fits_array_map fun a ha => h.fits a (hl a ha)
  reads _ hl := reads_list fun a ha => h.reads a (hl a ha)
  yields := h.yields.list

namespace Context

/-- references that were read, finished facts, and positions of 64 bits -/
structure Writable (c : Context) : Prop where
  target : c.target.Valid
  mixins : ∀ e ∈ c.mixins, e.Writable
  completeInterfaces : ∀ f ∈ c.completeInterfaces, f.interface.Valid
  conflicts : ∀ k ∈ c.conflicts, k.Writable
  warnings : ∀ w ∈ c.warnings, Legible w.references

theorem faithful : Faithful 5 Writable toJson decode where
  fits c h := MembersFit.object (by
    have hmixins := MixinEntry.faithful.list.fits _ h.mixins
    have hcomplete := (CompleteInterfaceFact.faithful.list.fits _ h.completeInterfaces).mono (show 3 ≤ 4 by decide)
    have hconflicts := (MixinConflict.faithful.list.fits _ h.conflicts).mono (show 3 ≤ 4 by decide)
    have hwarnings := (Warning.faithful.list.fits _ h.warnings).mono (show 2 ≤ 4 by decide)
    simp only [membersFit_append, membersFit_member]
    exact ⟨⟨⟨⟨fits_typeJson 4 c.target, hmixins⟩, hcomplete⟩, hconflicts⟩, hwarnings⟩)
  reads c h := by
    refine Record.Reads.decoder (.seq (.seq (.seq (.seq (.map mk ?_) ?_) ?_) ?_) ?_)
    · exact reads_fieldOr (by simp) (reads_typeRef h.target)
    · exact reads_fieldOr (by simp) (MixinEntry.faithful.list.reads _ h.mixins)
    · exact reads_fieldOr (by simp) (CompleteInterfaceFact.faithful.list.reads _ h.completeInterfaces)
    · exact reads_fieldOr (by simp) (MixinConflict.faithful.list.reads _ h.conflicts)
    · exact reads_fieldOr (by simp) (Warning.faithful.list.reads _ h.warnings)
  yields := by
    refine Record.Yields.decoder (.seq (.seq (.seq (.seq (.map (yields_field yields_typeRef) ?_)
      (yields_field MixinEntry.faithful.list.yields)) (yields_field CompleteInterfaceFact.faithful.list.yields))
      (yields_field MixinConflict.faithful.list.yields)) (yields_field Warning.faithful.list.yields)) _
    exact fun t ht ms hms is his ks hks ws hws => ⟨ht, hms, his, hks, hws⟩

end Context

/-! ## Catalogs -/

theorem TypeKind.reads (k : TypeKind) : Reads decode (.string k.text) k := by cases k <;> exact reads_named rfl

namespace GenericParam

theorem faithful : Faithful 2 (fun p => Legible p.constraints) toJson decode where
  fits p _ := MembersFit.object (by simp [typesJson, typeJson])
  reads p h := by
    refine Record.Reads.decoder (.seq (.map mk ?_) ?_)
    · exact reads_fieldOr (by simp) (reads_string p.name)
    · exact reads_typesOr (by simp) h
  yields := by
    refine Record.Yields.decoder (.seq (.map (yields_field (yields_any _)) ?_) (yields_typesOr "constraints")) _
    exact fun name _ ts hts => hts

end GenericParam

namespace TypeDecl

theorem legible_iff (d : TypeDecl) :
    Legible d.references ↔ (∀ p ∈ d.genericParams, Legible p.constraints) ∧ Legible d.interfaces := by
  rw [references, legible_append, legible_flatMap]

theorem fits_toMembers (d : TypeDecl) (h : Legible d.references) : MembersFit 3 d.toMembers := by
  simp only [toMembers, membersFit_append, membersFit_member, membersFit_memberOfList, Json.fits_string, true_and,
    List.forall_mem_map, typesJson, fits_typeJson, implies_true, and_true]
  exact fun p hp => GenericParam.faithful.fits p (((legible_iff d).1 h).1 p hp)

theorem faithful : Faithful 4 (fun d => Legible d.references) toJson decode where
  fits d h := (d.fits_toMembers h).object
  reads d h := by
    obtain ⟨hparams, hinterfaces⟩ := (legible_iff d).1 h
    refine Record.Reads.decoder (.seq (.seq (.seq (.seq (.map mk ?_) ?_) ?_) ?_) ?_)
    · exact reads_fieldOr (by simp [toMembers]) (reads_string d.name)
    · exact reads_fieldOr (by simp [toMembers]) d.kind.reads
    · exact reads_listOr (by simp [toMembers]) fun p hp => GenericParam.faithful.reads p (hparams p hp)
    · exact reads_typesOr (by simp [toMembers]) hinterfaces
    · exact reads_setOr (by simp [toMembers]) fun name _ => reads_string name
  yields := by
    refine Record.Yields.decoder (.seq (.seq (.seq (.seq (.map (yields_field (yields_any _)) ?_)
      (yields_field (yields_any _))) (yields_fieldOr (by simp) GenericParam.faithful.list.yields))
      (yields_typesOr "interfaces")) (yields_fieldOr (by simp) (yields_any _))) _
    exact fun name _ kind _ ps hps ts hts members _ => (legible_iff _).2 ⟨hps, hts⟩

end TypeDecl

namespace Catalog

theorem legible_iff (c : Catalog) : Legible c.references ↔ ∀ d ∈ c.toList, Legible d.references := legible_flatMap

/-- a table that has the declarations of a catalog under their names is that catalog -/
theorem ofTable_ok {c : Catalog} {t : SortedTable String TypeDecl} (h : t.toList = c.toList.map fun d => (d.name, d)) :
    ofTable t = .ok c := by
  have hfind : t.toList.find? (fun e => e.1 != e.2.name) = none := by
    rw [h, List.find?_eq_none]
    simp
  have hlist : t.toList.map Prod.snd = c.toList := by
    rw [h, List.map_map]
    exact List.map_id _
  rw [ofTable, hfind]
  show Except.ok (SortedBy.ofList (t.toList.map Prod.snd)) = .ok c
  rw [hlist, SortedBy.ofList_toList]

/-- the table of a catalog's declarations -/
def table (c : Catalog) : SortedTable String TypeDecl :=
  ⟨c.toList.map fun d => (d.name, d), List.pairwise_map.2 c.ascending⟩

theorem faithful : Faithful 5 (fun c => Legible c.references) toJson decode where
  fits c h := by
    refine Json.fits_object.2 (List.forall_mem_map.2 fun d hd => ?_)
    exact TypeDecl.faithful.fits d ((legible_iff c).1 h d hd)
  reads c h src := by
    have hread : Reads (Wire.table Except.ok TypeDecl.decode) c.toJson c.table := by
      have hread : Reads (Wire.table Except.ok TypeDecl.decode)
          (.object (c.table.toList.map fun e => (e.1, e.2.toJson))) c.table := by
        refine reads_table (fun _ _ => rfl) (List.forall_mem_map.2 fun d hd => ?_)
        exact TypeDecl.faithful.reads d ((legible_iff c).1 h d hd)
      rwa [table, List.map_map] at hread
    rw [decode, hread src]
    exact ofTable_ok rfl
  yields src r c hc := by
    obtain ⟨t, ht, hc⟩ := TypeRef.bind_eq_ok hc
    have hdecls := Yields.table (Q := fun _ => True) (fun _ _ _ => trivial) TypeDecl.faithful.yields src r t ht
    unfold ofTable at hc
    split at hc
    next => cases hc
    next =>
      cases hc
      refine (legible_iff _).2 fun d hd => ?_
      obtain ⟨e, he, rfl⟩ := List.mem_map.1 (SortedBy.mem_of_mem_ofList hd)
      exact (hdecls e he).2

end Catalog

end MixinPlanner
