/-
The written form of a context or a catalog determines it, as long as every type reference in it was read from a text.

`references` lists the type references of a value, and `Legible` says that a text was read as each of them. Folding facts
invents none (`Context.legible_build`), so a context of legible facts is legible.
- `Context.toJson_inj`, `Catalog.toJson_inj`: values with one written form are the same, although members that say
  nothing are left out of it;
- `Context.compact_inj`, `Catalog.compact_inj`: the same of the texts that are hashed.
-/
import Mathlib.Tactic
import MixinPlanner.Proofs.Folding
import MixinPlanner.Proofs.JsonText
import MixinPlanner.Proofs.TypeText
import MixinPlanner.Wire.Catalog
import MixinPlanner.Wire.Context

namespace MixinPlanner

open Wire

/-! ## The references of a value -/

/-- the type references of a mixin fact -/
def MixinFact.references (f : MixinFact) : List TypeRef := f.mixin :: (f.dependencies ++ f.suppresses.toList)

/-- the type references of a fact -/
def Fact.references : Fact → List TypeRef
  | .mixin f => f.references
  | .completeInterface f => [f.interface]

/-- the type references of a warning -/
def Warning.references : Warning → List TypeRef
  | .unusedSuppression m s => [m, s]
  | .ignoredDependency m d => [m, d]

/-- the type references of a context -/
def Context.references (c : Context) : List TypeRef :=
  c.target :: (c.mixins.flatMap (fun e => e.fact.references) ++
    (c.completeInterfaces.map CompleteInterfaceFact.interface ++
      (c.conflicts.map MixinConflict.mixin ++ c.warnings.flatMap Warning.references)))

/-- the type references of a declaration -/
def TypeDecl.references (d : TypeDecl) : List TypeRef :=
  d.genericParams.flatMap GenericParam.constraints ++ d.interfaces

/-- the type references of a catalog -/
def Catalog.references (c : Catalog) : List TypeRef := c.toList.flatMap TypeDecl.references

/-- every one of some references is what a text was read as -/
def Legible (ts : List TypeRef) : Prop := ∀ t ∈ ts, ∃ s, TypeRef.parse s = .ok t

theorem legible_append {ts us : List TypeRef} : Legible (ts ++ us) ↔ Legible ts ∧ Legible us := List.forall_mem_append

theorem legible_cons {t : TypeRef} {ts : List TypeRef} : Legible (t :: ts) ↔ t.Valid ∧ Legible ts := by
  rw [TypeRef.valid_iff_parsed]
  exact List.forall_mem_cons

theorem legible_flatMap {α : Type} {f : α → List TypeRef} {l : List α} :
    Legible (l.flatMap f) ↔ ∀ a ∈ l, Legible (f a) := List.forall_mem_flatMap

theorem legible_map {α : Type} {f : α → TypeRef} {l : List α} : Legible (l.map f) ↔ ∀ a ∈ l, (f a).Valid := by
  simp [Legible, TypeRef.valid_iff_parsed]

/-! ## Folding invents no reference -/

theorem MixinFact.legible_iff (f : MixinFact) : Legible f.references ↔
    f.mixin.Valid ∧ Legible f.dependencies ∧ Legible f.suppresses.toList := by
  rw [references, legible_cons, legible_append]

theorem MixinFact.legible_absorb {f later : MixinFact} (h : Legible f.references) (hl : Legible later.references) :
    Legible (f.absorb later).references := by
  obtain ⟨hm, hd, hs⟩ := (legible_iff f).1 h
  obtain ⟨-, hd', hs'⟩ := (legible_iff later).1 hl
  refine (legible_iff _).2 ⟨hm, fun t ht => ?_, fun t ht => ?_⟩
  · exact ((mem_addNew f.dependencies later.dependencies t).1 ht).elim (hd t) (hd' t)
  · exact (SortedBy.mem_insertAll.1 ht).elim (hs t) (hs' t)

namespace Context

theorem legible_iff (c : Context) : Legible c.references ↔ c.target.Valid ∧
    (∀ e ∈ c.mixins, Legible e.fact.references) ∧ (∀ f ∈ c.completeInterfaces, f.interface.Valid) ∧
      (∀ k ∈ c.conflicts, k.mixin.Valid) ∧ ∀ w ∈ c.warnings, Legible w.references := by
  simp only [references, legible_cons, legible_append, legible_flatMap, legible_map]

theorem legible_suppress (byDefinition : Bool) {m s : TypeRef} {c : Context} (h : Legible c.references)
    (hm : m.Valid) (hs : s.Valid) : Legible (c.suppress byDefinition m s).references := by
  obtain ⟨htarget, hmixins, hcomplete, hconflicts, hwarnings⟩ := (legible_iff c).1 h
  rw [legible_iff]
  simp only [suppress]
  split_ifs
  · refine ⟨htarget, hmixins, hcomplete, hconflicts, fun w hw => ?_⟩
    rcases List.mem_append.1 hw with hw | hw
    · exact hwarnings w hw
    · rw [List.mem_singleton.1 hw]
      exact legible_cons.2 ⟨hm, legible_cons.2 ⟨hs, List.forall_mem_nil _⟩⟩
  · exact ⟨htarget, fun e he => hmixins e (List.mem_of_mem_filter he), hcomplete,
      fun k hk => hconflicts k (List.mem_of_mem_filter hk), hwarnings⟩

theorem legible_wiped (byDefinition : Bool) {c : Context} {f : MixinFact} (h : Legible c.references)
    (hf : Legible f.references) : Legible (c.wiped byDefinition f).references := by
  obtain ⟨hm, -, hsuppresses⟩ := (MixinFact.legible_iff f).1 hf
  unfold wiped
  generalize f.suppresses.toList = l at hsuppresses
  induction l generalizing c with
  | nil => exact h
  | cons s l ih =>
    obtain ⟨hs, hl⟩ := legible_cons.1 hsuppresses
    exact ih (legible_suppress byDefinition h hm hs) hl

theorem legible_add {c : Context} {f : MixinFact} (n : ℕ) (h : Legible c.references) (hf : Legible f.references) :
    Legible (c.add f n).references := by
  obtain ⟨htarget, hmixins, hcomplete, hconflicts, hwarnings⟩ := (legible_iff c).1 h
  rw [legible_iff]
  unfold add
  split
  next =>
    refine ⟨htarget, fun e he => ?_, hcomplete, hconflicts, hwarnings⟩
    rcases List.mem_append.1 he with he | he
    · exact hmixins e he
    · rwa [List.mem_singleton.1 he]
  next known =>
    refine ⟨htarget, fun e he => ?_, hcomplete, fun k hk => ?_, hwarnings⟩
    · obtain ⟨e', he', rfl⟩ := List.mem_map.1 he
      split_ifs
      · exact MixinFact.legible_absorb (hmixins e' he') hf
      · exact hmixins e' he'
    · have hnew : k ∈ c.conflicts ∨ k.mixin = f.mixin := by
        dsimp only at hk
        split_ifs at hk
        · exact .inl hk
        · rcases List.mem_append.1 hk with hk | hk
          · exact .inl hk
          · exact .inr (by rw [List.mem_singleton.1 hk])
      rcases hnew with hk | hk
      · exact hconflicts k hk
      · exact hk ▸ ((MixinFact.legible_iff f).1 hf).1

theorem legible_complete {c : Context} {f : CompleteInterfaceFact} (h : Legible c.references)
    (hf : f.interface.Valid) : Legible (c.complete f).references := by
  obtain ⟨htarget, hmixins, hcomplete, hconflicts, hwarnings⟩ := (legible_iff c).1 h
  rw [legible_iff]
  unfold complete
  split_ifs
  · exact ⟨htarget, hmixins, hcomplete, hconflicts, hwarnings⟩
  · refine ⟨htarget, hmixins, fun g hg => ?_, hconflicts, hwarnings⟩
    rcases List.mem_append.1 hg with hg | hg
    · exact hcomplete g hg
    · rwa [List.mem_singleton.1 hg]

/-- a context of facts has no reference that was not in them, or was the target -/
theorem legible_build (settings : Settings) {target : TypeRef} {facts : List Fact} (ht : target.Valid)
    (hf : ∀ f ∈ facts, Legible f.references) : Legible (build settings target facts).references := by
  induction facts using List.reverseRecOn with
  | nil =>
    rw [legible_iff]
    exact ⟨ht, List.forall_mem_nil _, List.forall_mem_nil _, List.forall_mem_nil _, List.forall_mem_nil _⟩
  | append_singleton facts x ih =>
    obtain ⟨hfacts, hx⟩ := List.forall_mem_append.1 hf
    have hx : Legible x.references := hx x (List.mem_singleton_self x)
    rw [build_snoc]
    cases x with
    | mixin f => exact legible_add _ (legible_wiped _ (ih hfacts) hx) hx
    | completeInterface f => exact legible_complete (ih hfacts) (legible_cons.1 hx).1

end Context

/-! ## Members of objects -/

theorem lookup_member (k n : String) (j : Json) : (member n j).lookup k = if k = n then some j else none := by
  by_cases h : k = n
  · simp [member, h]
  · simp [member, List.lookup_cons, h, beq_false_of_ne h]

theorem lookup_memberOfList (k n : String) (items : List Json) :
    (memberOfList n items).lookup k = if k = n ∧ items ≠ [] then some (.array items) else none := by
  cases items with
  | nil => simp [memberOfList]
  | cons j js => simp [show memberOfList n (j :: js) = member n (.array (j :: js)) from rfl, lookup_member]

theorem lookup_memberOfText (k n : String) (s : Option String) :
    (memberOfText n s).lookup k = if k = n then s.map .string else none := by
  cases s with
  | none => simp [memberOfText]
  | some s => exact lookup_member k n (.string s)

/-- the items under a name, none where there is no such member -/
def itemsAt (k : String) (ms : MemberList) : List Json :=
  match ms.lookup k with
  | some (.array items) => items
  | _ => []

/-- a list that is left out when it is empty can still be told: no member under a name means the empty list -/
theorem itemsAt_of_lookup {k : String} {ms : MemberList} {items : List Json}
    (h : ms.lookup k = (memberOfList k items).lookup k) : itemsAt k ms = items := by
  rw [itemsAt, h, lookup_memberOfList]
  cases items <;> simp

theorem map_inj_of {α β : Type} {f : α → β} {l l' : List α} (hf : ∀ a ∈ l, ∀ b ∈ l', f a = f b → a = b)
    (h : l.map f = l'.map f) : l = l' := by
  induction l generalizing l' with
  | nil => exact (List.map_eq_nil_iff.1 h.symm).symm
  | cons a l ih =>
    cases l' with
    | nil => cases h
    | cons b l' =>
      rw [List.map_cons, List.map_cons, List.cons.injEq] at h
      rw [hf a List.mem_cons_self b List.mem_cons_self h.1,
        ih (fun a ha b hb => hf a (List.mem_cons_of_mem _ ha) b (List.mem_cons_of_mem _ hb)) h.2]

theorem typeJson_inj {t u : TypeRef} (ht : t.Valid) (hu : u.Valid) (h : typeJson t = typeJson u) : t = u :=
  TypeRef.text_inj ht hu (Json.string.inj h)

theorem typesJson_inj {ts us : List TypeRef} (ht : Legible ts) (hu : Legible us) (h : typesJson ts = typesJson us) :
    ts = us :=
  map_inj_of (fun t hmem u hmem' => typeJson_inj ((TypeRef.valid_iff_parsed t).2 (ht t hmem))
    ((TypeRef.valid_iff_parsed u).2 (hu u hmem'))) h

/-! ## Facts -/

theorem MixinKind.text_inj {a b : MixinKind} (h : a.text = b.text) : a = b := by
  cases a <;> cases b <;> first | rfl | exact absurd h (by decide)

theorem Visibility.text_inj {a b : Visibility} (h : a.text = b.text) : a = b := by
  cases a <;> cases b <;> first | rfl | exact absurd h (by decide)

theorem Application.toJson_inj {a b : Application} (h : a.toJson = b.toJson) : a = b := by
  simp only [toJson, member, List.cons_append, List.nil_append, Json.object.injEq, List.cons.injEq, Prod.mk.injEq,
    Json.string.injEq, true_and, and_true] at h
  obtain ⟨hkind, hvisibility⟩ := h
  cases a; cases b
  rw [mk.injEq]
  exact ⟨MixinKind.text_inj hkind, Visibility.text_inj hvisibility⟩

/-- the members of a written mixin fact by their names -/
theorem MixinFact.lookup_toMembers (f : MixinFact) :
    f.toMembers.lookup "mixin" = some (typeJson f.mixin) ∧ f.toMembers.lookup "kind" = some (.string f.kind.text) ∧
      f.toMembers.lookup "visibility" = some (.string f.visibility.text) ∧
      itemsAt "dependencies" f.toMembers = typesJson f.dependencies ∧
      itemsAt "suppresses" f.toMembers = typesJson f.suppresses.toList ∧
      f.toMembers.lookup "origin" = f.origin.map .string := by
  refine ⟨?_, ?_, ?_, itemsAt_of_lookup ?_, itemsAt_of_lookup ?_, ?_⟩ <;>
    simp [toMembers, List.lookup_append, lookup_member, lookup_memberOfList, lookup_memberOfText]

theorem MixinFact.toMembers_inj {f g : MixinFact} (hf : Legible f.references) (hg : Legible g.references)
    (h : f.toMembers = g.toMembers) : f = g := by
  obtain ⟨hm, hd, hs⟩ := (legible_iff f).1 hf
  obtain ⟨hm', hd', hs'⟩ := (legible_iff g).1 hg
  obtain ⟨hmixin, hkind, hvisibility, hdeps, hsuppresses, horigin⟩ := lookup_toMembers f
  obtain ⟨hmixin', hkind', hvisibility', hdeps', hsuppresses', horigin'⟩ := lookup_toMembers g
  rw [h] at hmixin hkind hvisibility hdeps hsuppresses horigin
  have mixin_eq : f.mixin = g.mixin := typeJson_inj hm hm' (Option.some.inj (hmixin.symm.trans hmixin'))
  have kind_eq : f.kind = g.kind :=
    MixinKind.text_inj (Json.string.inj (Option.some.inj (hkind.symm.trans hkind')))
  have visibility_eq : f.visibility = g.visibility :=
    Visibility.text_inj (Json.string.inj (Option.some.inj (hvisibility.symm.trans hvisibility')))
  have dependencies_eq : f.dependencies = g.dependencies := typesJson_inj hd hd' (hdeps.symm.trans hdeps')
  have suppresses_eq : f.suppresses = g.suppresses :=
    SortedBy.ext (typesJson_inj hs hs' (hsuppresses.symm.trans hsuppresses'))
  have origin_eq : f.origin = g.origin :=
    Option.map_injective (fun _ _ => Json.string.inj) (horigin.symm.trans horigin')
  cases f; cases g
  rw [mk.injEq]
  exact ⟨mixin_eq, kind_eq, visibility_eq, dependencies_eq, suppresses_eq, origin_eq⟩

theorem MixinFact.toJson_inj {f g : MixinFact} (hf : Legible f.references) (hg : Legible g.references)
    (h : f.toJson = g.toJson) : f = g := toMembers_inj hf hg (Json.object.inj h)

theorem CompleteInterfaceFact.lookup_toMembers (f : CompleteInterfaceFact) :
    f.toMembers.lookup "interface" = some (typeJson f.interface) ∧
      f.toMembers.lookup "origin" = f.origin.map .string := by
  constructor <;> simp [toMembers, List.lookup_append, lookup_member, lookup_memberOfText]

theorem CompleteInterfaceFact.toJson_inj {f g : CompleteInterfaceFact} (hf : f.interface.Valid)
    (hg : g.interface.Valid) (h : f.toJson = g.toJson) : f = g := by
  have hmembers : f.toMembers = g.toMembers := Json.object.inj h
  obtain ⟨hinterface, horigin⟩ := lookup_toMembers f
  obtain ⟨hinterface', horigin'⟩ := lookup_toMembers g
  rw [hmembers] at hinterface horigin
  have interface_eq : f.interface = g.interface :=
    typeJson_inj hf hg (Option.some.inj (hinterface.symm.trans hinterface'))
  have origin_eq : f.origin = g.origin :=
    Option.map_injective (fun _ _ => Json.string.inj) (horigin.symm.trans horigin')
  cases f; cases g
  rw [mk.injEq]
  exact ⟨interface_eq, origin_eq⟩

/-! ## Contexts -/

theorem nat_inj {m n : ℕ} (h : Json.nat m = Json.nat n) : m = n := Int.ofNat.inj (Json.int.inj h)

theorem MixinEntry.toJson_inj {a b : MixinEntry} (ha : Legible a.fact.references) (hb : Legible b.fact.references)
    (h : a.toJson = b.toJson) : a = b := by
  simp only [toJson, member, List.cons_append, List.nil_append, Json.object.injEq, List.cons.injEq, Prod.mk.injEq,
    true_and, and_true] at h
  obtain ⟨hfact, hindex⟩ := h
  cases a; cases b
  rw [mk.injEq]
  exact ⟨MixinFact.toJson_inj ha hb hfact, nat_inj hindex⟩

theorem MixinConflict.toJson_inj {a b : MixinConflict} (ha : a.mixin.Valid) (hb : b.mixin.Valid)
    (h : a.toJson = b.toJson) : a = b := by
  simp only [toJson, member, List.cons_append, List.nil_append, Json.object.injEq, List.cons.injEq, Prod.mk.injEq,
    true_and, and_true] at h
  obtain ⟨hmixin, hfirst, hsecond, hfirstIndex, hsecondIndex⟩ := h
  cases a; cases b
  rw [mk.injEq]
  exact ⟨typeJson_inj ha hb hmixin, Application.toJson_inj hfirst, Application.toJson_inj hsecond,
    nat_inj hfirstIndex, nat_inj hsecondIndex⟩

theorem Warning.toJson_inj {v w : Warning} (hv : Legible v.references) (hw : Legible w.references)
    (h : v.toJson = w.toJson) : v = w := by
  match v, w with
  | unusedSuppression m s, unusedSuppression m' s' =>
    obtain ⟨hm, hs⟩ := legible_cons.1 hv
    obtain ⟨hm', hs'⟩ := legible_cons.1 hw
    simp only [toJson, member, List.cons_append, List.nil_append, Json.object.injEq, List.cons.injEq, Prod.mk.injEq,
      true_and, and_true] at h
    rw [typeJson_inj hm hm' h.1, typeJson_inj (legible_cons.1 hs).1 (legible_cons.1 hs').1 h.2]
  | ignoredDependency m d, ignoredDependency m' d' =>
    obtain ⟨hm, hd⟩ := legible_cons.1 hv
    obtain ⟨hm', hd'⟩ := legible_cons.1 hw
    simp only [toJson, member, List.cons_append, List.nil_append, Json.object.injEq, List.cons.injEq, Prod.mk.injEq,
      true_and, and_true] at h
    rw [typeJson_inj hm hm' h.1, typeJson_inj (legible_cons.1 hd).1 (legible_cons.1 hd').1 h.2]
  | unusedSuppression _ _, ignoredDependency _ _ => simp [toJson, member] at h
  | ignoredDependency _ _, unusedSuppression _ _ => simp [toJson, member] at h

namespace Context

/-- **A context can be told from its written form.** -/
theorem toJson_inj {c d : Context} (hc : Legible c.references) (hd : Legible d.references)
    (h : c.toJson = d.toJson) : c = d := by
  obtain ⟨htarget, hmixins, hcomplete, hconflicts, hwarnings⟩ := (legible_iff c).1 hc
  obtain ⟨htarget', hmixins', hcomplete', hconflicts', hwarnings'⟩ := (legible_iff d).1 hd
  simp only [toJson, member, List.cons_append, List.nil_append, Json.object.injEq, List.cons.injEq, Prod.mk.injEq,
    Json.array.injEq, true_and, and_true] at h
  obtain ⟨target_eq, mixins_eq, complete_eq, conflicts_eq, warnings_eq⟩ := h
  cases c; cases d
  rw [mk.injEq]
  refine ⟨typeJson_inj htarget htarget' target_eq, map_inj_of ?_ mixins_eq, map_inj_of ?_ complete_eq,
    map_inj_of ?_ conflicts_eq, map_inj_of ?_ warnings_eq⟩
  · exact fun a ha b hb => MixinEntry.toJson_inj (hmixins a ha) (hmixins' b hb)
  · exact fun a ha b hb => CompleteInterfaceFact.toJson_inj (hcomplete a ha) (hcomplete' b hb)
  · exact fun a ha b hb => MixinConflict.toJson_inj (hconflicts a ha) (hconflicts' b hb)
  · exact fun a ha b hb => Warning.toJson_inj (hwarnings a ha) (hwarnings' b hb)

theorem compact_inj {c d : Context} (hc : Legible c.references) (hd : Legible d.references)
    (h : c.toJson.compact = d.toJson.compact) : c = d := toJson_inj hc hd (Json.compact_inj h)

end Context

/-! ## Catalogs -/

theorem TypeKind.text_inj {a b : TypeKind} (h : a.text = b.text) : a = b := by
  cases a <;> cases b <;> first | rfl | exact absurd h (by decide)

theorem GenericParam.exists_members (p : GenericParam) : ∃ ms, p.toJson = .object ms ∧
    ms.lookup "name" = some (.string p.name) ∧ itemsAt "constraints" ms = typesJson p.constraints := by
  refine ⟨_, rfl, ?_, itemsAt_of_lookup ?_⟩ <;> simp [List.lookup_append, lookup_member, lookup_memberOfList]

theorem GenericParam.toJson_inj {p q : GenericParam} (hp : Legible p.constraints) (hq : Legible q.constraints)
    (h : p.toJson = q.toJson) : p = q := by
  obtain ⟨ms, hms, hname, hconstraints⟩ := exists_members p
  obtain ⟨ms', hms', hname', hconstraints'⟩ := exists_members q
  obtain rfl : ms = ms' := Json.object.inj (hms.symm.trans (h.trans hms'))
  have name_eq : p.name = q.name := Json.string.inj (Option.some.inj (hname.symm.trans hname'))
  have constraints_eq : p.constraints = q.constraints :=
    typesJson_inj hp hq (hconstraints.symm.trans hconstraints')
  cases p; cases q
  rw [mk.injEq]
  exact ⟨name_eq, constraints_eq⟩

theorem TypeDecl.lookup_toMembers (d : TypeDecl) :
    d.toMembers.lookup "name" = some (.string d.name) ∧ d.toMembers.lookup "kind" = some (.string d.kind.text) ∧
      itemsAt "genericParams" d.toMembers = d.genericParams.map GenericParam.toJson ∧
      itemsAt "interfaces" d.toMembers = typesJson d.interfaces ∧
      itemsAt "members" d.toMembers = d.members.toList.map .string := by
  refine ⟨?_, ?_, itemsAt_of_lookup ?_, itemsAt_of_lookup ?_, itemsAt_of_lookup ?_⟩ <;>
    simp [toMembers, List.lookup_append, lookup_member, lookup_memberOfList]

theorem TypeDecl.toJson_inj {d e : TypeDecl} (hd : Legible d.references) (he : Legible e.references)
    (h : d.toJson = e.toJson) : d = e := by
  obtain ⟨hparams, hinterfaces⟩ := legible_append.1 hd
  obtain ⟨hparams', hinterfaces'⟩ := legible_append.1 he
  rw [legible_flatMap] at hparams hparams'
  have hmembers : d.toMembers = e.toMembers := Json.object.inj h
  obtain ⟨hname, hkind, hlist, hbases, hnames⟩ := lookup_toMembers d
  obtain ⟨hname', hkind', hlist', hbases', hnames'⟩ := lookup_toMembers e
  rw [hmembers] at hname hkind hlist hbases hnames
  have name_eq : d.name = e.name := Json.string.inj (Option.some.inj (hname.symm.trans hname'))
  have kind_eq : d.kind = e.kind :=
    TypeKind.text_inj (Json.string.inj (Option.some.inj (hkind.symm.trans hkind')))
  have params_eq : d.genericParams = e.genericParams :=
    map_inj_of (fun p hp q hq => GenericParam.toJson_inj (hparams p hp) (hparams' q hq)) (hlist.symm.trans hlist')
  have interfaces_eq : d.interfaces = e.interfaces :=
    typesJson_inj hinterfaces hinterfaces' (hbases.symm.trans hbases')
  have members_eq : d.members = e.members :=
    SortedBy.ext (map_inj_of (fun _ _ _ _ => Json.string.inj) (hnames.symm.trans hnames'))
  cases d; cases e
  rw [mk.injEq]
  exact ⟨name_eq, kind_eq, params_eq, interfaces_eq, members_eq⟩

namespace Catalog

/-- **A catalog can be told from its written form.** -/
theorem toJson_inj {c d : Catalog} (hc : Legible c.references) (hd : Legible d.references)
    (h : c.toJson = d.toJson) : c = d := by
  refine SortedBy.ext (map_inj_of (fun a ha b hb hab => ?_) (Json.object.inj h))
  exact TypeDecl.toJson_inj (legible_flatMap.1 hc a ha) (legible_flatMap.1 hd b hb) (Prod.mk.inj hab).2

theorem compact_inj {c d : Catalog} (hc : Legible c.references) (hd : Legible d.references)
    (h : c.toJson.compact = d.toJson.compact) : c = d := toJson_inj hc hd (Json.compact_inj h)

end Catalog

end MixinPlanner
