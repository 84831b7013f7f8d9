/-
Which suppressions are noted as unused, and where the note says what is not so.

A suppression is noted as unused if it removes nothing. The suppressions of one fact are carried out one after the other, so
one that matches mixins declared before the fact removes nothing all the same where earlier ones of the fact have removed them
(`Forestalled`): it is noted, and was not unused.
- `suppress_warnings`, `suppressAll_warnings`: what one suppression notes, and a run of them in ascending order;
- `warnings_snoc`: what one fact more notes;
- `suppressions_noted`: over all facts, the suppressions noted are those that are unused and those that are forestalled;
- `build_warnings`: nothing else is warned of while facts are folded.
-/
import MixinPlanner.Proofs.Folding

namespace MixinPlanner

open Std

instance (byDefinition : Bool) (s m : TypeRef) : Decidable (Matches byDefinition s m) :=
  decidable_of_iff _ (suppresses_iff byDefinition s m)

/-! ## What is noted -/

/-- a mixin stands once facts are folded: it is declared at or after its last suppression -/
def Standing (byDefinition : Bool) (facts : List Fact) (m : TypeRef) : Prop :=
  ∃ i, lastSuppression byDefinition facts m ≤ i ∧ DeclaredAt facts m i

theorem forall_standing_iff (settings : Settings) (target : TypeRef) (facts : List Fact) (p : TypeRef → Prop) :
    (∀ m, Standing settings.suppressDefinitions facts m → p m) ↔
      ∀ e ∈ (Context.build settings target facts).mixins, p e.mixin := by
  constructor
  · intro h e he
    exact h e.mixin ((Context.exists_entry_iff settings target facts e.mixin).1 ⟨e, he, rfl⟩)
  · intro h m hm
    obtain ⟨e, he, rfl⟩ := (Context.exists_entry_iff settings target facts m).2 hm
    exact h e he

instance (byDefinition : Bool) (facts : List Fact) (p : TypeRef → Prop) [DecidablePred p] :
    Decidable (∀ m, Standing byDefinition facts m → p m) :=
  decidable_of_iff _ (forall_standing_iff { suppressDefinitions := byDefinition } default facts p).symm

/-- a suppression is unused after some facts: it matches no mixin that stands -/
def Unused (byDefinition : Bool) (facts : List Fact) (s : TypeRef) : Prop :=
  ∀ m, Standing byDefinition facts m → ¬ Matches byDefinition s m

instance (byDefinition : Bool) (facts : List Fact) (s : TypeRef) : Decidable (Unused byDefinition facts s) :=
  inferInstanceAs (Decidable (∀ m, Standing byDefinition facts m → ¬ Matches byDefinition s m))

/-- a suppression of a fact matches mixins that stand, but for each there is an earlier one of the fact that matches it -/
structure Forestalled (byDefinition : Bool) (facts : List Fact) (f : MixinFact) (s : TypeRef) : Prop where
  used : ¬ Unused byDefinition facts s
  taken : ∀ m, Standing byDefinition facts m → Matches byDefinition s m →
    ∃ s' ∈ f.suppresses.toList, compare s' s = .lt ∧ Matches byDefinition s' m

instance (byDefinition : Bool) (facts : List Fact) (f : MixinFact) (s : TypeRef) :
    Decidable (Forestalled byDefinition facts f s) :=
  decidable_of_iff (¬ Unused byDefinition facts s ∧ ∀ m, Standing byDefinition facts m → Matches byDefinition s m →
    ∃ s' ∈ f.suppresses.toList, compare s' s = .lt ∧ Matches byDefinition s' m) ⟨fun h => ⟨h.1, h.2⟩, fun h => ⟨h.1, h.2⟩⟩

theorem unused_or_forestalled_iff (byDefinition : Bool) (facts : List Fact) (f : MixinFact) (s : TypeRef) :
    Unused byDefinition facts s ∨ Forestalled byDefinition facts f s ↔
      ∀ m, Standing byDefinition facts m → Matches byDefinition s m →
        ∃ s' ∈ f.suppresses.toList, compare s' s = .lt ∧ Matches byDefinition s' m := by
  constructor
  · rintro (h | h)
    · intro m hm hs
      exact absurd hs (h m hm)
    · exact h.taken
  · intro h
    by_cases hu : Unused byDefinition facts s
    · exact .inl hu
    · exact .inr ⟨hu, h⟩

/-- what a fact after others notes: its suppressions that are unused or forestalled, in ascending order -/
def Fact.notes (byDefinition : Bool) (before : List Fact) : Fact → List Warning
  | .mixin f => (f.suppresses.toList.filter fun s =>
      Unused byDefinition before s ∨ Forestalled byDefinition before f s).map (.unusedSuppression f.mixin)
  | .completeInterface _ => []

namespace Context

/-! ## Suppressions carried out -/

theorem suppress_warnings (byDefinition : Bool) (m : TypeRef) (c : Context) (s : TypeRef) :
    (c.suppress byDefinition m s).warnings =
      c.warnings ++ if ∃ e ∈ c.mixins, Matches byDefinition s e.mixin then [] else [.unusedSuppression m s] := by
  have hremoved : ((c.mixins.map MixinEntry.mixin).filter (suppresses byDefinition s)).isEmpty = true ↔
      ¬ ∃ e ∈ c.mixins, Matches byDefinition s e.mixin := by
    rw [List.isEmpty_iff, List.filter_eq_nil_iff]
    simp only [List.forall_mem_map, suppresses_iff, not_exists, not_and]
  simp only [suppress]
  by_cases h : ∃ e ∈ c.mixins, Matches byDefinition s e.mixin
  · rw [if_neg (mt hremoved.1 (not_not_intro h)), if_pos h, List.append_nil]
  · rw [if_pos (hremoved.2 h), if_neg h]

/-- after a run of suppressions, one more finds what it matches unless the run matches it all -/
theorem exists_matches_suppressAll (byDefinition : Bool) (m : TypeRef) (c : Context) (l : List TypeRef) (s : TypeRef) :
    (∃ e ∈ (l.foldl (suppress byDefinition m) c).mixins, Matches byDefinition s e.mixin) ↔
      ∃ e ∈ c.mixins, Matches byDefinition s e.mixin ∧ ∀ s' ∈ l, ¬ Matches byDefinition s' e.mixin := by
  rw [suppressAll_mixins]
  simp only [List.mem_filter, Bool.not_eq_true', List.any_eq_false, suppresses_iff]
  refine exists_congr fun e => ?_
  constructor
  · rintro ⟨⟨he, hfree⟩, hs⟩
    exact ⟨he, hs, hfree⟩
  · rintro ⟨he, hs, hfree⟩
    exact ⟨⟨he, hfree⟩, hs⟩

/-- a run of suppressions in ascending order notes each one for which earlier ones leave nothing -/
theorem suppressAll_warnings (byDefinition : Bool) (m : TypeRef) (c : Context) (l : List TypeRef)
    (h : l.Pairwise fun s s' => compare s s' = .lt) : (l.foldl (suppress byDefinition m) c).warnings =
      c.warnings ++ (l.filter fun s => ∀ e ∈ c.mixins, Matches byDefinition s e.mixin →
        ∃ s' ∈ l, compare s' s = .lt ∧ Matches byDefinition s' e.mixin).map (.unusedSuppression m) := by
  induction l using List.reverseRecOn with
  | nil => simp
  | append_singleton l s ih =>
    obtain ⟨hl, -, hbefore⟩ := List.pairwise_append.1 h
    have hlt : ∀ t ∈ l, compare t s = .lt := fun t ht => hbefore t ht s (List.mem_singleton_self s)
    -- what comes last is before no other one
    have hothers : (l.filter fun t => ∀ e ∈ c.mixins, Matches byDefinition t e.mixin →
        ∃ s' ∈ l ++ [s], compare s' t = .lt ∧ Matches byDefinition s' e.mixin) =
        l.filter fun t => ∀ e ∈ c.mixins, Matches byDefinition t e.mixin →
          ∃ s' ∈ l, compare s' t = .lt ∧ Matches byDefinition s' e.mixin := by
      apply List.filter_congr
      intro t ht
      have hnot : compare s t ≠ .lt := by
        rw [OrientedCmp.gt_of_lt (hlt t ht)]
        decide
      simp [or_and_right, exists_or, hnot]
    -- and all others are before it
    have hearlier : ∀ e, (∃ s' ∈ l ++ [s], compare s' s = .lt ∧ Matches byDefinition s' e) ↔
        ∃ s' ∈ l, Matches byDefinition s' e := by
      have hself : compare s s = .eq := ReflCmp.compare_self
      intro e
      simp only [List.mem_append, List.mem_singleton, or_and_right, exists_or, exists_eq_left, hself, reduceCtorEq,
        false_and, or_false]
      exact exists_congr fun s' => and_congr_right fun hs' => and_iff_right (hlt s' hs')
    have hlast : (∀ e ∈ c.mixins, Matches byDefinition s e.mixin →
        ∃ s' ∈ l ++ [s], compare s' s = .lt ∧ Matches byDefinition s' e.mixin) ↔
        ¬ ∃ e ∈ (l.foldl (suppress byDefinition m) c).mixins, Matches byDefinition s e.mixin := by
      rw [exists_matches_suppressAll]
      simp only [hearlier]
      push Not
      rfl
    rw [List.foldl_append, List.foldl_cons, List.foldl_nil, suppress_warnings, ih hl, List.filter_append, List.map_append,
      hothers, List.append_assoc]
    congr 2
    by_cases hs : ∃ e ∈ (l.foldl (suppress byDefinition m) c).mixins, Matches byDefinition s e.mixin
    · rw [if_pos hs, List.filter_cons_of_neg (by simpa using mt hlast.1 (not_not_intro hs)), List.filter_nil,
        List.map_nil]
    · rw [if_neg hs, List.filter_cons_of_pos (by simpa using hlast.2 hs), List.filter_nil, List.map_cons, List.map_nil]

theorem add_warnings (c : Context) (f : MixinFact) (n : ℕ) : (c.add f n).warnings = c.warnings := by
  unfold add
  split <;> rfl

theorem complete_warnings (c : Context) (f : CompleteInterfaceFact) : (c.complete f).warnings = c.warnings := by
  unfold complete
  split_ifs <;> rfl

/-! ## Facts folded -/

/-- one fact more notes its suppressions that are unused or forestalled -/
theorem warnings_snoc (settings : Settings) (target : TypeRef) (facts : List Fact) (x : Fact) :
    (build settings target (facts ++ [x])).warnings =
      (build settings target facts).warnings ++ x.notes settings.suppressDefinitions facts := by
  rw [build_snoc]
  cases x with
  | completeInterface f =>
    rw [fold_completeInterface, complete_warnings, Fact.notes, List.append_nil]
  | mixin f =>
    rw [fold_mixin, add_warnings, wiped, suppressAll_warnings _ f.mixin _ _ f.suppresses.ascending, Fact.notes]
    congr 2
    apply List.filter_congr
    intro s _
    rw [decide_eq_decide, unused_or_forestalled_iff, forall_standing_iff settings target facts]

/-- while facts are folded, the only warnings are those of suppressions -/
theorem build_warnings (settings : Settings) (target : TypeRef) (facts : List Fact) :
    ∀ w ∈ (build settings target facts).warnings, ∃ m s, w = .unusedSuppression m s := by
  induction facts using List.reverseRecOn with
  | nil => exact List.forall_mem_nil _
  | append_singleton facts x ih =>
    intro w hw
    rw [warnings_snoc, List.mem_append] at hw
    rcases hw with hw | hw
    · exact ih w hw
    · cases x with
      | completeInterface f => cases hw
      | mixin f =>
        obtain ⟨s, -, rfl⟩ := List.mem_map.1 hw
        exact ⟨f.mixin, s, rfl⟩

/-- **Which suppressions are noted.** While a fact is folded, each of its suppressions is noted that matches nothing of what
stands, and each for which earlier suppressions of the same fact match all that it matches; they are noted in the order of the
facts, and for one fact in ascending order. -/
theorem suppressions_noted (settings : Settings) (target : TypeRef) (facts : List Fact) :
    (build settings target facts).warnings =
      facts.zipIdx.flatMap fun x => x.1.notes settings.suppressDefinitions (facts.take x.2) := by
  induction facts using List.reverseRecOn with
  | nil => rfl
  | append_singleton facts x ih =>
    have hbefore : (facts.zipIdx.flatMap fun y => y.1.notes settings.suppressDefinitions ((facts ++ [x]).take y.2)) =
        facts.zipIdx.flatMap fun y => y.1.notes settings.suppressDefinitions (facts.take y.2) := by
      apply List.flatMap_congr
      intro y hy
      rw [List.take_append_of_le_length (List.snd_lt_of_mem_zipIdx hy).le]
    rw [warnings_snoc, ih, List.zipIdx_append, List.flatMap_append, hbefore]
    simp

/-- a mixin that suppresses a definition and an application of it -/
def quietFact : MixinFact :=
  { mixin := ⟨"Quiet", []⟩, suppresses := .ofList [⟨"Log", []⟩, ⟨"Log", [.closed ⟨"Order", []⟩]⟩] }

/-- suppressions are not only noted where they are unused: the application stands, and is removed with its definition before
its own suppression is carried out -/
theorem not_only_unused : ¬ ∀ (settings : Settings) (target : TypeRef) (before : List Fact) (f : MixinFact),
    ∀ s ∈ f.suppresses.toList, .unusedSuppression f.mixin s ∈
      (build settings target (before ++ [.mixin f])).warnings.drop (build settings target before).warnings.length ↔
        Unused settings.suppressDefinitions before s := by
  intro hall
  have hlog := hall {} ⟨"T", []⟩ [.mixin { mixin := ⟨"Log", [.closed ⟨"Order", []⟩]⟩ }] quietFact
    ⟨"Log", [.closed ⟨"Order", []⟩]⟩ (by decide)
  exact absurd (hlog.1 (by decide)) (by decide)

end Context

end MixinPlanner
