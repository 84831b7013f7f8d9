/-
What the fold of the facts leaves in a context.

`find?_build` says it of one mixin: its declarations since its last suppression, merged. It follows from what one fact does
(`find?_wiped`, `find?_add`) by adding facts at the end. `Context.Inv` is what the list of entries keeps meanwhile: no mixin
twice, and the indices ascending.

- `build_meaning`: which mixins have an entry, what each entry says, the order of the entries, and which complete
  interfaces are kept.
- `wellFormed_of_mem_build`: an entry's fact is as well formed as those that it was merged from.
-/
import Mathlib.Tactic
import MixinPlanner.Proofs.Declarations

namespace MixinPlanner

namespace Context

/-! ## One fact folded in -/

theorem suppress_mixins (byDefinition : Bool) (m : TypeRef) (c : Context) (s : TypeRef) :
    (c.suppress byDefinition m s).mixins = c.mixins.filter fun e => !suppresses byDefinition s e.mixin := by
  simp only [suppress]
  split_ifs with h
  · refine (List.filter_eq_self.2 fun e he => ?_).symm
    have hs := List.filter_eq_nil_iff.1 (List.isEmpty_iff.1 h) e.mixin (List.mem_map_of_mem he)
    simpa using hs
  · rfl

theorem suppressAll_mixins (byDefinition : Bool) (m : TypeRef) (c : Context) (l : List TypeRef) :
    (l.foldl (suppress byDefinition m) c).mixins =
      c.mixins.filter fun e => !l.any fun s => suppresses byDefinition s e.mixin := by
  induction l generalizing c with
  | nil => simp
  | cons s l ih =>
    rw [List.foldl_cons, ih, suppress_mixins, List.filter_filter]
    simp only [List.any_cons, Bool.not_or, Bool.and_comm]

/-- what is left of the entries after the suppressions of a fact -/
def wiped (byDefinition : Bool) (c : Context) (f : MixinFact) : Context :=
  f.suppresses.toList.foldl (suppress byDefinition f.mixin) c

theorem wiped_mixins (byDefinition : Bool) (c : Context) (f : MixinFact) :
    (c.wiped byDefinition f).mixins = c.mixins.filter fun e => !(Fact.mixin f).wipes byDefinition e.mixin :=
  suppressAll_mixins byDefinition f.mixin c f.suppresses.toList

theorem wiped_same (byDefinition : Bool) (c : Context) (f : MixinFact) :
    (c.wiped byDefinition f).target = c.target ∧ (c.wiped byDefinition f).completeInterfaces = c.completeInterfaces := by
  unfold wiped
  induction f.suppresses.toList generalizing c with
  | nil => exact ⟨rfl, rfl⟩
  | cons s l ih =>
    obtain ⟨htarget, hcomplete⟩ := ih (c.suppress byDefinition f.mixin s)
    rw [List.foldl_cons, htarget, hcomplete]
    simp only [suppress]
    split_ifs <;> exact ⟨rfl, rfl⟩

theorem add_same (c : Context) (f : MixinFact) (n : ℕ) :
    (c.add f n).target = c.target ∧ (c.add f n).completeInterfaces = c.completeInterfaces := by
  unfold add
  split <;> exact ⟨rfl, rfl⟩

theorem complete_same (c : Context) (f : CompleteInterfaceFact) :
    (c.complete f).target = c.target ∧ (c.complete f).mixins = c.mixins := by
  unfold complete
  split_ifs <;> exact ⟨rfl, rfl⟩

theorem fold_completeInterface (byDefinition : Bool) (c : Context) (f : CompleteInterfaceFact) (n : ℕ) :
    c.fold byDefinition (.completeInterface f, n) = c.complete f := rfl

theorem fold_mixin (byDefinition : Bool) (c : Context) (f : MixinFact) (n : ℕ) :
    c.fold byDefinition (.mixin f, n) = (c.wiped byDefinition f).add f n := rfl

theorem mixin_of_find? {c : Context} {m : TypeRef} {e : MixinEntry} (h : c.find? m = some e) : e.mixin = m := by
  simpa using List.find?_some h

theorem find?_eq_some (c : Context) (h : (c.mixins.map MixinEntry.mixin).Nodup) (m : TypeRef) (e : MixinEntry) :
    c.find? m = some e ↔ e ∈ c.mixins ∧ e.mixin = m := by
  constructor
  · intro he
    exact ⟨List.mem_of_find?_eq_some he, mixin_of_find? he⟩
  · rintro ⟨he, rfl⟩
    obtain ⟨e', he'⟩ : ∃ e', c.find? e.mixin = some e' :=
      Option.isSome_iff_exists.1 (List.find?_isSome.2 ⟨e, he, by simp⟩)
    rw [he', List.inj_on_of_nodup_map h (List.mem_of_find?_eq_some he') he (mixin_of_find? he')]

theorem find?_eq_none (c : Context) (m : TypeRef) : c.find? m = none ↔ ∀ e ∈ c.mixins, e.mixin ≠ m := by
  simp [find?]

theorem find?_wiped (byDefinition : Bool) (c : Context) (f : MixinFact) (m : TypeRef) :
    (c.wiped byDefinition f).find? m = if (Fact.mixin f).wipes byDefinition m then none else c.find? m := by
  simp only [find?, wiped_mixins, List.find?_filter]
  split_ifs with hw
  · refine List.find?_eq_none.2 fun e _ he => ?_
    simp only [beq_iff_eq, decide_eq_true_eq] at he
    rw [he.2, hw] at he
    exact absurd he.1 (by decide)
  · congr 1
    funext e
    by_cases he : e.mixin = m
    · simp [he, hw]
    · simp [he]

/-- an entry after a fact about its mixin, or about another one, was added -/
def absorbed (f : MixinFact) (e : MixinEntry) : MixinEntry :=
  if e.mixin = f.mixin then { e with fact := e.fact.absorb f } else e

theorem absorbed_mixin (f : MixinFact) (e : MixinEntry) : (absorbed f e).mixin = e.mixin := by
  unfold absorbed
  split_ifs <;> rfl

theorem absorbed_declarationIndex (f : MixinFact) (e : MixinEntry) :
    (absorbed f e).declarationIndex = e.declarationIndex := by
  unfold absorbed
  split_ifs <;> rfl

theorem add_mixins_of_none (c : Context) (f : MixinFact) (n : ℕ) (h : c.find? f.mixin = none) :
    (c.add f n).mixins = c.mixins ++ [⟨f, n⟩] := by
  simp [add, h]

theorem add_mixins_of_some (c : Context) (f : MixinFact) (n : ℕ) (e : MixinEntry) (h : c.find? f.mixin = some e) :
    (c.add f n).mixins = c.mixins.map (absorbed f) := by
  simp only [add, h]
  rfl

theorem add_conflicts_of_none (c : Context) (f : MixinFact) (n : ℕ) (h : c.find? f.mixin = none) :
    (c.add f n).conflicts = c.conflicts := by
  simp only [add, h]

theorem add_conflicts_of_some (c : Context) (f : MixinFact) (n : ℕ) (e : MixinEntry) (h : c.find? f.mixin = some e) :
    (c.add f n).conflicts = if e.fact.application = f.application then c.conflicts else
      c.conflicts ++ [⟨f.mixin, e.fact.application, f.application, e.declarationIndex, n⟩] := by
  simp only [add, h]

theorem find?_add (c : Context) (f : MixinFact) (n : ℕ) (m : TypeRef) :
    (c.add f n).find? m = if f.mixin = m then some (joined (c.find? m) (f, n)) else c.find? m := by
  cases hk : c.find? f.mixin with
  | none =>
    rw [find?, add_mixins_of_none c f n hk, List.find?_append, ← find?]
    split_ifs with hm
    · subst hm
      rw [hk]
      simp [joined, MixinEntry.mixin]
    · have hne : ¬ (⟨f, n⟩ : MixinEntry).mixin = m := hm
      simp [hne]
  | some e =>
    have hkeep : (fun e' : MixinEntry => e'.mixin == m) ∘ absorbed f = fun e' => e'.mixin == m := by
      funext e'
      rw [Function.comp_apply, absorbed_mixin]
    rw [find?, add_mixins_of_some c f n e hk, List.find?_map, hkeep, ← find?]
    split_ifs with hm
    · subst hm
      rw [hk]
      simp [joined, absorbed, mixin_of_find? hk]
    · cases hf : c.find? m with
      | none => rfl
      | some e' =>
        have hne : ¬ e'.mixin = f.mixin := fun h => hm (h.symm.trans (mixin_of_find? hf))
        simp [absorbed, hne]

/-! ## The entries of a run -/

theorem build_snoc (settings : Settings) (target : TypeRef) (facts : List Fact) (x : Fact) :
    build settings target (facts ++ [x]) =
      (build settings target facts).fold settings.suppressDefinitions (x, facts.length) := by
  simp [build, List.zipIdx_append]

theorem build_target (settings : Settings) (target : TypeRef) (facts : List Fact) :
    (build settings target facts).target = target := by
  induction facts using List.reverseRecOn with
  | nil => rfl
  | append_singleton facts x ih =>
    rw [build_snoc]
    cases x with
    | mixin f => rw [fold_mixin, (add_same ..).1, (wiped_same ..).1, ih]
    | completeInterface f => rw [fold_completeInterface, (complete_same ..).1, ih]

/-- **What the fold leaves of a mixin.** Its declarations since its last suppression, merged. -/
theorem find?_build (settings : Settings) (target : TypeRef) (facts : List Fact) (m : TypeRef) :
    (build settings target facts).find? m = merged (declaredSince settings.suppressDefinitions facts m) := by
  induction facts using List.reverseRecOn with
  | nil => rfl
  | append_singleton facts x ih =>
    rw [build_snoc, declaredSince_snoc]
    cases x with
    | completeInterface g =>
      rw [fold_completeInterface, find?, (complete_same _ g).2, ← find?, ih]
      simp [Fact.wipes, declares?]
    | mixin f =>
      have hwiped : ((build settings target facts).wiped settings.suppressDefinitions f).find? m =
          merged (if (Fact.mixin f).wipes settings.suppressDefinitions m then []
            else declaredSince settings.suppressDefinitions facts m) := by
        rw [find?_wiped, ih]
        split_ifs <;> rfl
      rw [fold_mixin, find?_add, hwiped]
      by_cases hm : f.mixin = m
      · rw [if_pos hm, ← merged_snoc]
        simp [declares?, hm]
      · rw [if_neg hm]
        simp [declares?, hm]

/-- the mixins of the entries, with the indices of their first declarations -/
def labels (c : Context) : List (TypeRef × ℕ) := c.mixins.map fun e => (e.mixin, e.declarationIndex)

/-- what the list of entries keeps while facts below an index are folded -/
structure Inv (n : ℕ) (c : Context) : Prop where
  /-- no mixin has two entries -/
  once : (c.labels.map Prod.fst).Nodup
  ascending : c.labels.Pairwise fun l l' => l.2 < l'.2
  below : ∀ l ∈ c.labels, l.2 < n

theorem labels_wiped (byDefinition : Bool) (c : Context) (f : MixinFact) :
    (c.wiped byDefinition f).labels.Sublist c.labels := by
  unfold labels
  rw [wiped_mixins]
  exact List.filter_sublist.map _

theorem labels_add_of_none (c : Context) (f : MixinFact) (n : ℕ) (h : c.find? f.mixin = none) :
    (c.add f n).labels = c.labels ++ [(f.mixin, n)] := by
  rw [labels, add_mixins_of_none c f n h, List.map_append]
  rfl

theorem labels_add_of_some (c : Context) (f : MixinFact) (n : ℕ) (e : MixinEntry) (h : c.find? f.mixin = some e) :
    (c.add f n).labels = c.labels := by
  rw [labels, add_mixins_of_some c f n e h, List.map_map]
  refine List.map_congr_left ?_
  intro e' _
  rw [Function.comp_apply, absorbed_mixin, absorbed_declarationIndex]

theorem Inv.succ {n : ℕ} {c : Context} (h : c.Inv n) : c.Inv (n + 1) :=
  ⟨h.once, h.ascending, fun l hl => (h.below l hl).trans (Nat.lt_succ_self n)⟩

theorem wiped_inv (byDefinition : Bool) (c : Context) (f : MixinFact) (n : ℕ) (h : c.Inv n) :
    (c.wiped byDefinition f).Inv n := by
  have hsub := labels_wiped byDefinition c f
  exact ⟨h.once.sublist (hsub.map _), h.ascending.sublist hsub, fun l hl => h.below l (hsub.subset hl)⟩

theorem add_inv (c : Context) (f : MixinFact) (n : ℕ) (h : c.Inv n) : (c.add f n).Inv (n + 1) := by
  cases hk : c.find? f.mixin with
  | some e =>
    have hsame := labels_add_of_some c f n e hk
    obtain ⟨once, ascending, below⟩ := h.succ
    exact ⟨hsame ▸ once, hsame ▸ ascending, hsame ▸ below⟩
  | none =>
    have hnew : ∀ e ∈ c.mixins, e.mixin ≠ f.mixin := (find?_eq_none c f.mixin).1 hk
    have hadd := labels_add_of_none c f n hk
    refine ⟨?_, ?_, ?_⟩
    · rw [hadd, List.map_append]
      refine h.once.append (List.nodup_singleton _) ?_
      intro m hm hm'
      obtain ⟨e, he, rfl⟩ : ∃ e ∈ c.mixins, e.mixin = m := by simpa [labels] using hm
      exact hnew e he (List.mem_singleton.1 hm')
    · rw [hadd]
      refine List.pairwise_append.2 ⟨h.ascending, List.pairwise_singleton _ _, fun l hl l' hl' => ?_⟩
      rw [List.mem_singleton.1 hl']
      exact h.below l hl
    · rw [hadd]
      intro l hl
      rcases List.mem_append.1 hl with hl | hl
      · exact h.succ.below l hl
      · rw [List.mem_singleton.1 hl]; exact Nat.lt_succ_self n

theorem fold_inv (byDefinition : Bool) (c : Context) (x : Fact) (n : ℕ) (h : c.Inv n) :
    (c.fold byDefinition (x, n)).Inv (n + 1) := by
  cases x with
  | mixin f => exact add_inv _ f n (wiped_inv byDefinition c f n h)
  | completeInterface f =>
    have hsame : (c.complete f).labels = c.labels := by rw [labels, (complete_same c f).2, labels]
    rw [fold_completeInterface]
    exact ⟨hsame ▸ h.succ.once, hsame ▸ h.succ.ascending, hsame ▸ h.succ.below⟩

theorem build_inv (settings : Settings) (target : TypeRef) (facts : List Fact) :
    (build settings target facts).Inv facts.length := by
  induction facts using List.reverseRecOn with
  | nil => exact ⟨List.nodup_nil, .nil, by simp [build, labels]⟩
  | append_singleton facts x ih =>
    rw [build_snoc, List.length_append, List.length_singleton]
    exact fold_inv settings.suppressDefinitions _ x facts.length ih

theorem mixins_nodup (settings : Settings) (target : TypeRef) (facts : List Fact) :
    ((build settings target facts).mixins.map MixinEntry.mixin).Nodup := by
  have h := (build_inv settings target facts).once
  rwa [labels, List.map_map] at h

/-- an entry is its mixin's declarations since the last suppression: the first one, with the others absorbed -/
theorem declared_of_mem_build (settings : Settings) (target : TypeRef) (facts : List Fact) (e : MixinEntry)
    (he : e ∈ (build settings target facts).mixins) :
    ∃ d later, declaredSince settings.suppressDefinitions facts e.mixin = d :: later ∧
      e.fact = d.1.absorbAll later ∧ e.declarationIndex = d.2 := by
  have hfind := find?_build settings target facts e.mixin
  rw [(find?_eq_some _ (mixins_nodup settings target facts) e.mixin e).2 ⟨he, rfl⟩] at hfind
  cases hd : declaredSince settings.suppressDefinitions facts e.mixin with
  | nil => rw [hd] at hfind; cases hfind
  | cons d later =>
    rw [hd, merged, Option.some.injEq] at hfind
    refine ⟨d, later, rfl, ?_, ?_⟩
    · rw [hfind]
    · rw [hfind]

theorem completeInterfaces_build (settings : Settings) (target : TypeRef) (facts : List Fact) :
    (build settings target facts).completeInterfaces = firstCompletions facts := by
  induction facts using List.reverseRecOn with
  | nil => rfl
  | append_singleton facts x ih =>
    rw [build_snoc, firstCompletions_snoc, ← ih]
    cases x with
    | mixin f =>
      rw [fold_mixin, (add_same ..).2, (wiped_same ..).2]
      exact (List.append_nil _).symm
    | completeInterface f =>
      have hknown : ((build settings target facts).completeInterfaces.any fun known => known.interface == f.interface) =
          true ↔ ∃ g ∈ completions facts, g.interface = f.interface := by
        rw [← exists_firstCompletions, ← ih, List.any_eq_true]
        simp only [beq_iff_eq]
      simp only [fold, complete, hknown, completesFirst?]
      split_ifs
      · exact (List.append_nil _).symm
      · rfl

end Context

/-! ## The meaning of a context -/

/-- what an entry says about the facts -/
structure Describes (byDefinition : Bool) (facts : List Fact) (e : MixinEntry) : Prop where
  /-- its index is that of the first declaration since the last suppression -/
  least : IsLeast {i | lastSuppression byDefinition facts e.mixin ≤ i ∧ DeclaredAt facts e.mixin i} e.declarationIndex
  /-- that declaration decides how the mixin is applied, and where it comes from -/
  applied : ∃ f, facts[e.declarationIndex]? = some (.mixin f) ∧
    e.fact.kind = f.kind ∧ e.fact.visibility = f.visibility ∧ e.fact.origin = f.origin
  /-- the dependencies of all declarations since then, each where it is first mentioned -/
  dependencies : e.fact.dependencies =
    ((declaredSince byDefinition facts e.mixin).flatMap fun d => d.1.dependencies).eraseDups
  /-- and their suppressions together -/
  suppresses : ∀ s, s ∈ e.fact.suppresses ↔ ∃ d ∈ declaredSince byDefinition facts e.mixin, s ∈ d.1.suppresses

/-- what a context says about the facts that it was built from -/
structure Meaning (byDefinition : Bool) (facts : List Fact) (c : Context) : Prop where
  present : ∀ m, (∃ e ∈ c.mixins, e.mixin = m) ↔ ∃ i, lastSuppression byDefinition facts m ≤ i ∧ DeclaredAt facts m i
  /-- no mixin has two entries -/
  unique : (c.mixins.map MixinEntry.mixin).Nodup
  describes : ∀ e ∈ c.mixins, Describes byDefinition facts e
  ascending : c.mixins.Pairwise fun e e' => e.declarationIndex < e'.declarationIndex
  completeInterfaces : c.completeInterfaces = firstCompletions facts

namespace Context

variable (settings : Settings) (target : TypeRef) (facts : List Fact)

theorem exists_entry_iff (m : TypeRef) : (∃ e ∈ (build settings target facts).mixins, e.mixin = m) ↔
    ∃ i, lastSuppression settings.suppressDefinitions facts m ≤ i ∧ DeclaredAt facts m i := by
  simp only [← exists_declaredSince_iff]
  have hfind := find?_build settings target facts m
  cases hd : declaredSince settings.suppressDefinitions facts m with
  | nil =>
    rw [hd, merged, find?_eq_none] at hfind
    simpa using hfind
  | cons d later =>
    rw [hd, merged, find?_eq_some _ (mixins_nodup settings target facts)] at hfind
    exact iff_of_true ⟨_, hfind⟩ ⟨d.2, d.1, List.mem_cons_self⟩

/-- an entry's index is that of its mixin's first declaration since the last suppression -/
theorem isLeast_declarationIndex {e : MixinEntry} (he : e ∈ (build settings target facts).mixins) :
    IsLeast {i | lastSuppression settings.suppressDefinitions facts e.mixin ≤ i ∧ DeclaredAt facts e.mixin i}
      e.declarationIndex := by
  obtain ⟨d, later, hd, -, hindex⟩ := declared_of_mem_build settings target facts e he
  have hmem : d ∈ declaredSince settings.suppressDefinitions facts e.mixin := hd ▸ List.mem_cons_self
  rw [hindex]
  refine ⟨(exists_declaredSince_iff ..).1 ⟨d.1, hmem⟩, ?_⟩
  intro i hi
  obtain ⟨f, hfi⟩ := (exists_declaredSince_iff ..).2 hi
  have hascending : (declaredSince settings.suppressDefinitions facts e.mixin).Pairwise fun d d' => d.2 < d'.2 :=
    declared_ascending facts e.mixin _
  rw [hd] at hfi hascending
  rcases List.mem_cons.1 hfi with rfl | h
  · exact le_rfl
  · exact ((List.pairwise_cons.1 hascending).1 _ h).le

/-- the first declaration decides how a mixin is applied, and where it comes from -/
theorem applied_of_mem {e : MixinEntry} (he : e ∈ (build settings target facts).mixins) :
    ∃ f, facts[e.declarationIndex]? = some (.mixin f) ∧
      e.fact.kind = f.kind ∧ e.fact.visibility = f.visibility ∧ e.fact.origin = f.origin := by
  obtain ⟨d, later, hd, hfact, hindex⟩ := declared_of_mem_build settings target facts e he
  have hmem : d ∈ declaredSince settings.suppressDefinitions facts e.mixin := hd ▸ List.mem_cons_self
  obtain ⟨-, hkind, hvisibility, horigin⟩ := d.1.absorbAll_same later
  rw [hfact, hindex]
  exact ⟨d.1, ((mem_declared ..).1 hmem).1, hkind, hvisibility, horigin⟩

theorem describes_of_mem (hf : Finished facts) {e : MixinEntry} (he : e ∈ (build settings target facts).mixins) :
    Describes settings.suppressDefinitions facts e := by
  obtain ⟨d, later, hd, hfact, -⟩ := declared_of_mem_build settings target facts e he
  have hmem : d ∈ declaredSince settings.suppressDefinitions facts e.mixin := hd ▸ List.mem_cons_self
  refine ⟨isLeast_declarationIndex settings target facts he, applied_of_mem settings target facts he, ?_, ?_⟩
  · have hnodup := (hf.of_declaredSince _ _ d hmem).1.nodup
    rw [hd, List.flatMap_cons, ← addNew_eq_eraseDups _ _ hnodup, hfact, MixinFact.absorbAll_dependencies]
  · intro s
    rw [hd, hfact, MixinFact.mem_absorbAll_suppresses]
    simp

/-- an entry's fact is as well formed as those that it was merged from -/
theorem wellFormed_of_mem_build (hf : Finished facts) {e : MixinEntry}
    (he : e ∈ (build settings target facts).mixins) : e.fact.WellFormed := by
  obtain ⟨d, later, hd, hfact, -⟩ := declared_of_mem_build settings target facts e he
  have hdeclared := hf.of_declaredSince settings.suppressDefinitions e.mixin
  rw [hd] at hdeclared
  obtain ⟨⟨hdf, hdm⟩, hlater⟩ := List.forall_mem_cons.1 hdeclared
  rw [hfact]
  exact d.1.absorbAll_wellFormed later hdf fun d' hd' => ⟨(hlater d' hd').1, (hlater d' hd').2.trans hdm.symm⟩

/-- **What a context means.** A mixin has an entry exactly if it is declared at or after its last suppression, and then
one entry, which merges its declarations since; entries stand in the order of first declaration, and of the complete
interfaces each is kept where it comes first. -/
theorem build_meaning (hf : Finished facts) :
    Meaning settings.suppressDefinitions facts (build settings target facts) where
  present := exists_entry_iff settings target facts
  unique := mixins_nodup settings target facts
  describes _ he := describes_of_mem settings target facts hf he
  ascending := by
    have h := (build_inv settings target facts).ascending
    rwa [labels, List.pairwise_map] at h
  completeInterfaces := completeInterfaces_build settings target facts

/-- a mixin declared twice, then replaced by a declaration that suppresses its definition, then declared once more -/
def replacedFacts : List Fact :=
  let log : TypeRef := ⟨"Log", [.closed ⟨"T", []⟩]⟩
  let dep (name : String) : TypeRef := ⟨name, []⟩
  [.mixin { mixin := log, kind := .used, dependencies := [dep "A", dep "B"] },
   .mixin { mixin := log, dependencies := [dep "B", dep "C"] },
   .mixin { mixin := log, dependencies := [dep "D"], suppresses := .ofList [⟨"Log", [.param "P"]⟩] },
   .completeInterface ⟨dep "I", none⟩,
   .mixin { mixin := log, visibility := .hidden, dependencies := [dep "A", dep "D"] },
   .completeInterface ⟨dep "I", some "later"⟩]

/-- the last two declarations are merged, and of the two facts about the interface the first is kept -/
theorem replacedFacts_meaning :
    Finished replacedFacts ∧ lastSuppression true replacedFacts ⟨"Log", [.closed ⟨"T", []⟩]⟩ = 2 ∧
      (build {} ⟨"T", []⟩ replacedFacts).mixins.map (fun e => (e.declarationIndex, e.fact.dependencies)) =
        [(2, [⟨"D", []⟩, ⟨"A", []⟩])] ∧
      (build {} ⟨"T", []⟩ replacedFacts).completeInterfaces = [⟨⟨"I", []⟩, none⟩] ∧
      Meaning true replacedFacts (build {} ⟨"T", []⟩ replacedFacts) := by
  have hf : Finished replacedFacts := by decide
  exact ⟨hf, by decide, by decide, by decide, build_meaning {} ⟨"T", []⟩ replacedFacts hf⟩

end Context

end MixinPlanner
