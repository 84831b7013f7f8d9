/-
What a list of facts says about a mixin.

The last suppression of a mixin is a boundary (`lastSuppression`): the fact there wipes what was declared before it and is
itself the first that may declare the mixin again. What counts are the declarations from the boundary on
(`declaredSince`), the first with the others absorbed into it (`merged`). Of the facts that complete an interface the first
counts (`firstCompletions`).

For each of these there is a lemma on one fact more at the end: `lastSuppression_snoc`, `declaredSince_snoc`,
`merged_snoc`, `firstCompletions_snoc`.
-/
import Mathlib.Tactic
import Mathlib.Data.Nat.Find
import MixinPlanner.Context

namespace MixinPlanner

/-! ## Suppression -/

/-- a suppression takes a mixin away: it names it or, where definitions count, it has no closed argument and the same
name -/
def Matches (byDefinition : Bool) (s m : TypeRef) : Prop :=
  s = m ∨ (byDefinition = true ∧ (∀ t, .closed t ∉ s.args) ∧ s.name = m.name)

theorem suppresses_iff (byDefinition : Bool) (s m : TypeRef) :
    suppresses byDefinition s m = true ↔ Matches byDefinition s m := by
  simp [suppresses, Matches, TypeRef.isDefinition_iff, TypeRef.sameDefinition, and_assoc]

/-- a fact has a suppression that takes a mixin away -/
def Fact.wipes (byDefinition : Bool) (m : TypeRef) : Fact → Bool
  | .mixin f => f.suppresses.toList.any fun s => suppresses byDefinition s m
  | .completeInterface _ => false

theorem Fact.wipes_iff (byDefinition : Bool) (f : MixinFact) (m : TypeRef) :
    (Fact.mixin f).wipes byDefinition m = true ↔ ∃ s ∈ f.suppresses, Matches byDefinition s m := by
  simp only [wipes, List.any_eq_true, suppresses_iff]
  rfl

/-- the fact at an index has a suppression that takes a mixin away -/
def SuppressedAt (byDefinition : Bool) (facts : List Fact) (m : TypeRef) (i : ℕ) : Prop :=
  ∃ f, facts[i]? = some (.mixin f) ∧ ∃ s ∈ f.suppresses, Matches byDefinition s m

theorem suppressedAt_iff (byDefinition : Bool) (facts : List Fact) (m : TypeRef) (i : ℕ) :
    SuppressedAt byDefinition facts m i ↔ ∃ x, facts[i]? = some x ∧ x.wipes byDefinition m = true := by
  constructor
  · intro ⟨f, hf, hs⟩
    exact ⟨_, hf, (Fact.wipes_iff byDefinition f m).2 hs⟩
  · intro ⟨x, hx, hw⟩
    cases x with
    | completeInterface f => exact absurd hw (by simp [Fact.wipes])
    | mixin f => exact ⟨f, hx, (Fact.wipes_iff byDefinition f m).1 hw⟩

instance (byDefinition : Bool) (facts : List Fact) (m : TypeRef) : DecidablePred (SuppressedAt byDefinition facts m) :=
  fun i => decidable_of_iff ((facts[i]?.any (Fact.wipes byDefinition m)) = true) (by
    rw [suppressedAt_iff]; cases facts[i]? <;> simp)

/-- the greatest index at which a mixin is taken away, and zero if there is none -/
def lastSuppression (byDefinition : Bool) (facts : List Fact) (m : TypeRef) : ℕ :=
  Nat.findGreatest (SuppressedAt byDefinition facts m) facts.length

theorem suppressedAt_snoc (byDefinition : Bool) (facts : List Fact) (x : Fact) (m : TypeRef) (i : ℕ) :
    SuppressedAt byDefinition (facts ++ [x]) m i ↔
      SuppressedAt byDefinition facts m i ∨ i = facts.length ∧ x.wipes byDefinition m = true := by
  simp only [suppressedAt_iff, List.getElem?_append, List.getElem?_singleton]
  rcases lt_trichotomy i facts.length with h | h | h
  · simp [h, h.ne]
  · simp [h]
  · simp [h.ne', h.not_gt, Nat.sub_ne_zero_of_lt h]

theorem SuppressedAt.lt {byDefinition : Bool} {facts : List Fact} {m : TypeRef} {i : ℕ}
    (h : SuppressedAt byDefinition facts m i) : i < facts.length := by
  obtain ⟨f, hf, -⟩ := h
  exact (List.getElem?_eq_some_iff.1 hf).1

theorem lastSuppression_le (byDefinition : Bool) (facts : List Fact) (m : TypeRef) :
    lastSuppression byDefinition facts m ≤ facts.length := Nat.findGreatest_le _

/-- a fact at the end moves the boundary to itself, or leaves it -/
theorem lastSuppression_snoc (byDefinition : Bool) (facts : List Fact) (x : Fact) (m : TypeRef) :
    lastSuppression byDefinition (facts ++ [x]) m =
      if x.wipes byDefinition m then facts.length else lastSuppression byDefinition facts m := by
  unfold lastSuppression
  rw [Nat.findGreatest_eq_iff, List.length_append, List.length_singleton]
  split_ifs with hx
  · refine ⟨Nat.le_succ _, fun _ => (suppressedAt_snoc ..).2 (.inr ⟨rfl, hx⟩), ?_⟩
    intro n hn _ h
    have hlt := h.lt
    rw [List.length_append, List.length_singleton] at hlt
    omega
  · have hsame : ∀ i, SuppressedAt byDefinition (facts ++ [x]) m i ↔ SuppressedAt byDefinition facts m i := by
      intro i
      simp [suppressedAt_snoc, hx]
    simp only [hsame]
    refine ⟨(Nat.findGreatest_le _).trans (Nat.le_succ _), fun hne => Nat.findGreatest_of_ne_zero rfl hne, ?_⟩
    intro n hn _ h
    exact Nat.findGreatest_is_greatest hn h.lt.le h

/-! ## Declarations -/

/-- the fact at an index declares a mixin -/
def DeclaredAt (facts : List Fact) (m : TypeRef) (i : ℕ) : Prop :=
  ∃ f, facts[i]? = some (.mixin f) ∧ f.mixin = m

/-- a fact with its index, if it declares a mixin from some index on -/
def declares? (m : TypeRef) (k : ℕ) : Fact × ℕ → Option (MixinFact × ℕ)
  | (.mixin f, i) => if f.mixin = m ∧ k ≤ i then some (f, i) else none
  | (.completeInterface _, _) => none

/-- the declarations of a mixin from some index on, each with its index -/
def declared (facts : List Fact) (m : TypeRef) (k : ℕ) : List (MixinFact × ℕ) :=
  facts.zipIdx.filterMap (declares? m k)

theorem declares?_eq_some (m : TypeRef) (k : ℕ) (x : Fact × ℕ) (d : MixinFact × ℕ) :
    declares? m k x = some d ↔ x = (.mixin d.1, d.2) ∧ d.1.mixin = m ∧ k ≤ d.2 := by
  obtain ⟨x, i⟩ := x
  obtain ⟨f, j⟩ := d
  cases x with
  | completeInterface g => simp [declares?]
  | mixin g =>
    simp only [declares?, Option.ite_none_right_eq_some, Option.some.injEq, Prod.mk.injEq, Fact.mixin.injEq]
    constructor
    · intro ⟨⟨hm, hk⟩, hf, hi⟩
      exact ⟨⟨hf, hi⟩, hf ▸ hm, hi ▸ hk⟩
    · intro ⟨⟨hf, hi⟩, hm, hk⟩
      exact ⟨⟨hf ▸ hm, hi ▸ hk⟩, hf, hi⟩

theorem mem_declared (facts : List Fact) (m : TypeRef) (k : ℕ) (d : MixinFact × ℕ) :
    d ∈ declared facts m k ↔ facts[d.2]? = some (.mixin d.1) ∧ d.1.mixin = m ∧ k ≤ d.2 := by
  simp only [declared, List.mem_filterMap, declares?_eq_some]
  constructor
  · rintro ⟨x, hx, rfl, hm⟩
    exact ⟨List.mem_zipIdx_iff_getElem?.1 hx, hm⟩
  · intro ⟨hx, hm⟩
    exact ⟨_, List.mem_zipIdx_iff_getElem?.2 hx, rfl, hm⟩

theorem declares?_of_le (m : TypeRef) (x : Fact) {k i : ℕ} (h : k ≤ i) : declares? m k (x, i) = declares? m 0 (x, i) := by
  cases x with
  | completeInterface f => rfl
  | mixin f => simp [declares?, h]

theorem declared_snoc (facts : List Fact) (x : Fact) (m : TypeRef) (k : ℕ) :
    declared (facts ++ [x]) m k = declared facts m k ++ (declares? m k (x, facts.length)).toList := by
  unfold declared
  rw [List.zipIdx_append, List.filterMap_append]
  cases h : declares? m k (x, facts.length) <;> simp [h]

/-- nothing is declared from the end on -/
theorem declared_length (facts : List Fact) (m : TypeRef) : declared facts m facts.length = [] := by
  rw [List.eq_nil_iff_forall_not_mem]
  intro d hd
  obtain ⟨hx, -, hk⟩ := (mem_declared ..).1 hd
  exact absurd (List.getElem?_eq_some_iff.1 hx).1 (by omega)

theorem declared_ascending (facts : List Fact) (m : TypeRef) (k : ℕ) :
    (declared facts m k).Pairwise fun d d' => d.2 < d'.2 := by
  have hidx : facts.zipIdx.Pairwise fun x y => x.2 < y.2 := by
    rw [← List.pairwise_map (R := (· < ·)), List.zipIdx_map_snd]
    exact List.pairwise_lt_range'
  refine List.pairwise_filterMap.2 (hidx.imp fun hxy d hd d' hd' => ?_)
  rw [declares?_eq_some] at hd hd'
  rw [hd.1, hd'.1] at hxy
  exact hxy

/-- the declarations of a mixin since its last suppression: what is left of it when all facts are folded -/
def declaredSince (byDefinition : Bool) (facts : List Fact) (m : TypeRef) : List (MixinFact × ℕ) :=
  declared facts m (lastSuppression byDefinition facts m)

theorem exists_declaredSince_iff (byDefinition : Bool) (facts : List Fact) (m : TypeRef) (i : ℕ) :
    (∃ f, (f, i) ∈ declaredSince byDefinition facts m) ↔
      lastSuppression byDefinition facts m ≤ i ∧ DeclaredAt facts m i := by
  simp only [declaredSince, mem_declared, DeclaredAt]
  constructor
  · intro ⟨f, hx, hm, hk⟩
    exact ⟨hk, f, hx, hm⟩
  · intro ⟨hk, f, hx, hm⟩
    exact ⟨f, hx, hm, hk⟩

/-- a fact at the end first wipes what was declared before it, and then may declare the mixin itself -/
theorem declaredSince_snoc (byDefinition : Bool) (facts : List Fact) (x : Fact) (m : TypeRef) :
    declaredSince byDefinition (facts ++ [x]) m =
      (if x.wipes byDefinition m then [] else declaredSince byDefinition facts m) ++
        (declares? m 0 (x, facts.length)).toList := by
  unfold declaredSince
  rw [lastSuppression_snoc, declared_snoc]
  -- the boundary is the fact itself, or lies before it
  split_ifs with hx
  · rw [declared_length, declares?_of_le m x le_rfl]
  · rw [declares?_of_le m x (lastSuppression_le byDefinition facts m)]

/-! ## Merging -/

section AddNew

variable {α : Type} [DecidableEq α]

theorem addNew_snoc (known new : List α) (a : α) :
    addNew known (new ++ [a]) = if a ∈ addNew known new then addNew known new else addNew known new ++ [a] := by
  simp only [addNew, List.foldl_append, List.foldl_cons, List.foldl_nil]
  congr

theorem mem_addNew (known new : List α) (a : α) : a ∈ addNew known new ↔ a ∈ known ∨ a ∈ new := by
  induction new using List.reverseRecOn with
  | nil => simp [addNew]
  | append_singleton new b ih =>
    rw [addNew_snoc]
    split_ifs with hb
    · constructor
      · exact fun h => (ih.1 h).imp_right (List.mem_append_left _)
      · intro hmem
        rcases hmem with h | h
        · exact ih.2 (.inl h)
        · rcases List.mem_append.1 h with h | h
          · exact ih.2 (.inr h)
          · rwa [List.mem_singleton.1 h]
    · rw [List.mem_append, ih, List.mem_append, or_assoc]

theorem addNew_append (known new new' : List α) : addNew known (new ++ new') = addNew (addNew known new) new' := by
  simp [addNew]

theorem addNew_of_subset {known new : List α} (h : ∀ a ∈ new, a ∈ known) :
    addNew known new = known := by
  induction new with
  | nil => rfl
  | cons a new ih =>
    obtain ⟨ha, hnew⟩ := List.forall_mem_cons.1 h
    rw [addNew, List.foldl_cons, if_pos ha]
    exact ih hnew

/-- adding what is new keeps the first occurrences of all that there is -/
theorem addNew_eq_eraseDups (known new : List α) (h : known.Nodup) : addNew known new = (known ++ new).eraseDups := by
  induction new using List.reverseRecOn with
  | nil =>
    rw [List.append_nil, addNew, List.foldl_nil]
    induction known with
    | nil => rfl
    | cons a known ih =>
      obtain ⟨ha, hknown⟩ := List.nodup_cons.1 h
      rw [List.eraseDups_cons, List.filter_eq_self.2, ← ih hknown]
      intro b hb
      simp only [Bool.not_eq_true', beq_eq_false_iff_ne]
      rintro rfl
      exact ha hb
  | append_singleton new a ih =>
    rw [addNew_snoc, ← List.append_assoc, List.eraseDups_append, ← ih]
    simp only [mem_addNew, ← List.mem_append, List.removeAll, List.filter_singleton, List.elem_eq_mem]
    split_ifs with ha
    · simp [ha]
    · simp [ha, List.eraseDups_cons]

theorem addNew_empty (new : List α) : addNew [] new = new.eraseDups := addNew_eq_eraseDups [] new List.nodup_nil

theorem addNew_nodup (known new : List α) (h : known.Nodup) : (addNew known new).Nodup := by
  induction new using List.reverseRecOn with
  | nil => exact h
  | append_singleton new a ih =>
    rw [addNew_snoc]
    split_ifs with ha
    · exact ih
    · exact ih.append (List.nodup_singleton a) (by simpa using ha)

end AddNew

/-- a well-formed fact that absorbs another one for its mixin stays well formed -/
theorem MixinFact.WellFormed.absorb {f later : MixinFact} (h : f.WellFormed) (hl : later.WellFormed)
    (hm : later.mixin = f.mixin) : (f.absorb later).WellFormed where
  nodup := addNew_nodup f.dependencies later.dependencies h.nodup
  not_self := by
    show f.mixin ∉ addNew f.dependencies later.dependencies
    rw [mem_addNew]
    intro hself
    rcases hself with hs | hs
    · exact h.not_self hs
    · exact hl.not_self (hm ▸ hs)

/-- later declarations absorbed in order -/
def MixinFact.absorbAll (f : MixinFact) (later : List (MixinFact × ℕ)) : MixinFact :=
  later.foldl (fun f d => f.absorb d.1) f

namespace MixinFact

variable (f : MixinFact) (later : List (MixinFact × ℕ))

/-- what tells how a mixin was applied, and where, stays as it was declared first -/
theorem absorbAll_same : (f.absorbAll later).mixin = f.mixin ∧ (f.absorbAll later).kind = f.kind ∧
    (f.absorbAll later).visibility = f.visibility ∧ (f.absorbAll later).origin = f.origin := by
  induction later generalizing f with
  | nil => exact ⟨rfl, rfl, rfl, rfl⟩
  | cons d later ih => exact ih (f.absorb d.1)

theorem absorbAll_application : (f.absorbAll later).application = f.application := by
  obtain ⟨-, hkind, hvisibility, -⟩ := f.absorbAll_same later
  rw [application, hkind, hvisibility, application]

theorem absorbAll_dependencies :
    (f.absorbAll later).dependencies = addNew f.dependencies (later.flatMap fun d => d.1.dependencies) := by
  induction later generalizing f with
  | nil => rfl
  | cons d later ih => rw [List.flatMap_cons, addNew_append]; exact ih (f.absorb d.1)

theorem mem_absorbAll_suppresses (s : TypeRef) :
    s ∈ (f.absorbAll later).suppresses ↔ s ∈ f.suppresses ∨ ∃ d ∈ later, s ∈ d.1.suppresses := by
  induction later generalizing f with
  | nil => simp [absorbAll]
  | cons d later ih =>
    have habsorb : s ∈ (f.absorb d.1).suppresses ↔ s ∈ f.suppresses ∨ s ∈ d.1.suppresses := SortedBy.mem_insertAll
    rw [absorbAll, List.foldl_cons, ← absorbAll, ih, habsorb, or_assoc]
    simp

theorem absorbAll_wellFormed (hf : f.WellFormed) (hl : ∀ d ∈ later, d.1.WellFormed ∧ d.1.mixin = f.mixin) :
    (f.absorbAll later).WellFormed := by
  induction later generalizing f with
  | nil => exact hf
  | cons d later ih =>
    obtain ⟨⟨hd, hm⟩, hl⟩ := List.forall_mem_cons.1 hl
    exact ih (f.absorb d.1) (hf.absorb hd hm) hl

end MixinFact

/-- declarations of one mixin merged into one entry: the first one, at its index, with the others absorbed in order -/
def merged : List (MixinFact × ℕ) → Option MixinEntry
  | [] => none
  | d :: later => some ⟨d.1.absorbAll later, d.2⟩

/-- one declaration joins what may be known of its mixin: it makes an entry, or is absorbed by it -/
def joined (known : Option MixinEntry) (d : MixinFact × ℕ) : MixinEntry :=
  match known with
  | none => ⟨d.1, d.2⟩
  | some e => { e with fact := e.fact.absorb d.1 }

theorem merged_snoc (ds : List (MixinFact × ℕ)) (d : MixinFact × ℕ) :
    merged (ds ++ [d]) = some (joined (merged ds) d) := by
  cases ds with
  | nil => rfl
  | cons d' later => simp [merged, joined, MixinFact.absorbAll]

/-! ## Complete interfaces -/

/-- the complete-interface facts in order -/
def completions (facts : List Fact) : List CompleteInterfaceFact :=
  facts.filterMap fun
    | .completeInterface f => some f
    | .mixin _ => none

/-- a fact, if it is the first to complete its interface after those before it -/
def completesFirst? (before : List Fact) : Fact → Option CompleteInterfaceFact
  | .completeInterface f => if ∃ g ∈ completions before, g.interface = f.interface then none else some f
  | .mixin _ => none

/-- the complete-interface facts that are the first for their interface, in order -/
def firstCompletions (facts : List Fact) : List CompleteInterfaceFact :=
  facts.zipIdx.filterMap fun x => completesFirst? (facts.take x.2) x.1

theorem firstCompletions_snoc (facts : List Fact) (x : Fact) :
    firstCompletions (facts ++ [x]) = firstCompletions facts ++ (completesFirst? facts x).toList := by
  unfold firstCompletions
  rw [List.zipIdx_append, List.filterMap_append]
  congr 1
  · refine List.filterMap_congr fun y hy => ?_
    rw [List.take_append_of_le_length (List.snd_lt_of_mem_zipIdx hy).le]
  · cases h : completesFirst? facts x <;> simp [h]

/-- no interface is lost -/
theorem exists_firstCompletions (facts : List Fact) (t : TypeRef) :
    (∃ g ∈ firstCompletions facts, g.interface = t) ↔ ∃ g ∈ completions facts, g.interface = t := by
  induction facts using List.reverseRecOn with
  | nil => rfl
  | append_singleton facts x ih =>
    rw [firstCompletions_snoc, completions, List.filterMap_append, ← completions]
    simp only [List.mem_append, or_and_right, exists_or, ih]
    cases x with
    | mixin f => simp [completesFirst?]
    | completeInterface f =>
      simp only [completesFirst?]
      split_ifs with hf
      · simp only [Option.toList_none, List.not_mem_nil, false_and, exists_false, or_false, List.filterMap_cons,
          List.filterMap_nil, List.mem_singleton, exists_eq_left]
        refine ⟨.inl, ?_⟩
        intro hcomplete
        rcases hcomplete with h | rfl
        · exact h
        · exact hf
      · simp

/-! ## Finished facts -/

instance (f : MixinFact) : Decidable f.WellFormed :=
  decidable_of_iff (f.dependencies.Nodup ∧ f.mixin ∉ f.dependencies)
    ⟨fun h => ⟨h.1, h.2⟩, fun h => ⟨h.nodup, h.not_self⟩⟩

/-- a mixin fact repeats no dependency, which `MixinFact.dependsOn` does not add twice, and does not depend on itself,
which `MixinFact.build` refuses -/
def Fact.WellFormed : Fact → Prop
  | .mixin f => f.WellFormed
  | .completeInterface _ => True

instance : DecidablePred Fact.WellFormed
  | .mixin f => inferInstanceAs (Decidable f.WellFormed)
  | .completeInterface _ => .isTrue trivial

/-- facts as they are when finished -/
def Finished (facts : List Fact) : Prop := ∀ x ∈ facts, x.WellFormed

instance (facts : List Fact) : Decidable (Finished facts) := inferInstanceAs (Decidable (∀ x ∈ facts, x.WellFormed))

theorem Finished.of_declaredSince {facts : List Fact} (h : Finished facts) (byDefinition : Bool) (m : TypeRef) :
    ∀ d ∈ declaredSince byDefinition facts m, d.1.WellFormed ∧ d.1.mixin = m := by
  intro d hd
  obtain ⟨hx, hm, -⟩ := (mem_declared ..).1 hd
  exact ⟨h (.mixin d.1) (List.mem_of_getElem? hx), hm⟩

end MixinPlanner
