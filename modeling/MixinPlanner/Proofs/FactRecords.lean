/-
What the records of a fact stream make of a configuration.

Records declare types and state facts about targets. They are `Coherent` if none of them declares a type otherwise than
another; then they are all taken, and the configuration `Says` what they say: its catalog has the declared types, and each
target the facts stated about it in their order. Nothing else of their order is left in it, so a configuration is known by
the types that are declared and by the facts of each target (`Says.eq`). The first record that declares a type otherwise
than one before it ends the run.
- `takeRecord_ok`, `takeRecord_error`: the step, for records that can and that cannot stand with the earlier ones;
- `takeAll_ok`, `takeAll_error`: the run over all records.
-/
import Mathlib.Tactic
import MixinPlanner.Proofs.LineReading
import MixinPlanner.Proofs.Members
import MixinPlanner.Stream.Facts

namespace MixinPlanner

namespace FactRecord

/-! ## Records -/

/-- the fact that a record states about a target -/
def factOf (target : TypeRef) : FactRecord → Option Fact
  | .type _ => none
  | .fact t f => if t = target then some f else none

/-- the facts that records state about a target, in their order -/
def factsOf (target : TypeRef) (rs : List FactRecord) : List Fact := rs.filterMap (factOf target)

/-- no two of the records declare one type in different ways -/
def Coherent (rs : List FactRecord) : Prop := ∀ d e, .type d ∈ rs → .type e ∈ rs → d.name = e.name → d = e

theorem coherent_nil : Coherent [] := fun _ _ hd => absurd hd List.not_mem_nil

theorem Coherent.of_subset {rs rs' : List FactRecord} (h : Coherent rs') (hsub : ∀ r ∈ rs, r ∈ rs') : Coherent rs :=
  fun d e hd he => h d e (hsub _ hd) (hsub _ he)

/-- a record that declares a type otherwise than one of some others, under its name -/
inductive Clashes (rs : List FactRecord) : FactRecord → String → Prop
  | type {d known : TypeDecl} (hknown : .type known ∈ rs) (hname : known.name = d.name) (h : known ≠ d) :
      Clashes rs (.type d) d.name

theorem Clashes.not_coherent {rs : List FactRecord} {r : FactRecord} {name : String} (h : Clashes rs r name) :
    ¬ Coherent (rs ++ [r]) := by
  cases h with
  | @type d known hknown hname h =>
    intro hrs
    exact h (hrs known d (List.mem_append_left _ hknown) (by simp) hname)

/-- records are coherent with one more, or the one more declares a type otherwise -/
theorem coherent_snoc {rs : List FactRecord} (h : Coherent rs) (r : FactRecord) :
    Coherent (rs ++ [r]) ∨ ∃ name, Clashes rs r name := by
  cases r with
  | fact t f =>
    refine .inl fun d e hd he => ?_
    rw [List.mem_append, List.mem_singleton, or_iff_left (by simp)] at hd he
    exact h d e hd he
  | type d =>
    by_cases hagree : ∀ known, .type known ∈ rs → known.name = d.name → known = d
    · refine .inl fun e e' he he' hname => ?_
      rw [List.mem_append, List.mem_singleton, type.injEq] at he he'
      rcases he with he | rfl <;> rcases he' with he' | rfl
      · exact h e e' he he' hname
      · exact hagree e he hname
      · exact (hagree e' he' hname.symm).symm
      · rfl
    · push Not at hagree
      obtain ⟨known, hknown, hname, hne⟩ := hagree
      exact .inr ⟨d.name, .type hknown hname hne⟩

end FactRecord

namespace Configuration

open FactRecord (factOf factsOf Coherent Clashes)

/-! ## What a configuration says -/

/-- a configuration says what some records say, and no more -/
structure Says (c : Configuration) (rs : List FactRecord) : Prop where
  catalog : ∀ d, d ∈ c.catalog ↔ .type d ∈ rs
  facts : ∀ t, c.facts t = factsOf t rs
  /-- a target is known by its facts only -/
  facts_ne_nil : ∀ e ∈ c.targets, e.2 ≠ []

theorem says_nil : Says {} [] := by
  refine ⟨fun d => ?_, fun _ => rfl, List.forall_mem_nil _⟩
  exact iff_of_false List.not_mem_nil List.not_mem_nil

/-- what is kept for a target is its facts, if it has any -/
theorem find?_targets {c : Configuration} (h : ∀ e ∈ c.targets, e.2 ≠ []) (t : TypeRef) :
    c.targets.find? t = if c.facts t = [] then none else some (t, c.facts t) := by
  cases hfind : c.targets.find? t with
  | none =>
    have hfacts : c.facts t = [] := by rw [facts, SortedBy.get?, hfind]; rfl
    rw [if_pos hfacts]
  | some e =>
    obtain ⟨he, rfl⟩ := SortedBy.find?_eq_some_iff.1 hfind
    have hfacts : c.facts e.1 = e.2 := by rw [facts, SortedBy.get?, hfind]; rfl
    rw [hfacts, if_neg (h e he)]

/-- a configuration is its catalog and its targets -/
theorem eq_of_parts {c c' : Configuration} (hcatalog : c.catalog = c'.catalog) (htargets : c.targets = c'.targets) :
    c = c' := by
  cases c
  cases c'
  cases hcatalog
  cases htargets
  rfl

/-- **What configurations are known by.** They are equal if they say of records that declare the same types and state the
same facts about each target in the same order. -/
theorem Says.eq {c c' : Configuration} {rs rs' : List FactRecord} (h : c.Says rs) (h' : c'.Says rs')
    (htypes : ∀ d, .type d ∈ rs ↔ .type d ∈ rs') (hfacts : ∀ t, factsOf t rs = factsOf t rs') : c = c' := by
  have hcatalog : c.catalog = c'.catalog :=
    SortedBy.eq_of_mem_iff fun d => (h.catalog d).trans ((htypes d).trans (h'.catalog d).symm)
  have htargets : c.targets = c'.targets := by
    refine SortedBy.eq_of_find?_eq fun t => ?_
    rw [find?_targets h.facts_ne_nil, find?_targets h'.facts_ne_nil, h.facts, h'.facts, hfacts]
  exact eq_of_parts hcatalog htargets

/-! ## The step -/

theorem facts_push (c : Configuration) (t : TypeRef) (f : Fact) (t' : TypeRef) :
    (c.push t f).facts t' = if t = t' then c.facts t ++ [f] else c.facts t' := by
  rw [facts, push, SortedBy.get?_insert]
  split <;> rfl

theorem Says.push {c : Configuration} {rs : List FactRecord} (h : c.Says rs) (t : TypeRef) (f : Fact) :
    (c.push t f).Says (rs ++ [.fact t f]) := by
  refine ⟨fun d => ?_, fun t' => ?_, fun e he => ?_⟩
  · rw [List.mem_append, List.mem_singleton, or_iff_left (by simp)]
    exact h.catalog d
  · rw [facts_push, factsOf, List.filterMap_append, h.facts, h.facts]
    by_cases ht : t = t'
    · subst ht
      simp [factsOf, factOf]
    · simp [factsOf, factOf, ht]
  · rcases SortedBy.mem_insert_iff.1 he with rfl | ⟨he, -⟩
    · exact List.append_ne_nil_of_right_ne_nil _ (List.cons_ne_nil f [])
    · exact h.facts_ne_nil e he

/-- a record that is coherent with those before it is taken -/
theorem takeRecord_ok {c : Configuration} {rs : List FactRecord} (hc : c.Says rs) {r : ℕ × FactRecord}
    (h : Coherent (rs ++ [r.2])) : ∃ c', takeRecord c r = .ok c' ∧ c'.Says (rs ++ [r.2]) := by
  obtain ⟨line, d | ⟨t, f⟩⟩ := r
  · have hfacts : ∀ t, c.facts t = factsOf t (rs ++ [.type d]) := by
      intro t
      rw [hc.facts, factsOf, factsOf, List.filterMap_append]
      exact (List.append_nil _).symm
    cases hfind : c.catalog.find? d.name with
    | some known =>
      obtain ⟨hknown, hname⟩ := SortedBy.find?_eq_some_iff.1 hfind
      obtain rfl : known = d := h known d (by simp [(hc.catalog known).1 hknown]) (by simp) hname
      refine ⟨c, by simp only [takeRecord, hfind, if_true], fun e => ?_, hfacts, hc.facts_ne_nil⟩
      rw [List.mem_append, List.mem_singleton, FactRecord.type.injEq, hc.catalog, iff_self_or]
      rintro rfl
      exact (hc.catalog e).1 hknown
    | none =>
      refine ⟨{ c with catalog := c.catalog.insert d }, by simp only [takeRecord, hfind], fun e => ?_, hfacts,
        hc.facts_ne_nil⟩
      rw [SortedBy.mem_insert_iff, List.mem_append, List.mem_singleton, FactRecord.type.injEq, hc.catalog, or_comm]
      refine or_congr_left (and_iff_left_of_imp fun he => ?_)
      exact (SortedBy.find?_eq_none_iff.1 hfind e ((hc.catalog e).2 he)).symm
  · exact ⟨c.push t f, rfl, hc.push t f⟩

/-- a record that declares a type otherwise than one before it is refused -/
theorem takeRecord_error {c : Configuration} {rs : List FactRecord} (hc : c.Says rs) {r : ℕ × FactRecord} {name : String}
    (h : Clashes rs r.2 name) : takeRecord c r = .error (.conflictingType r.1 name) := by
  obtain ⟨line, r⟩ := r
  cases h with
  | @type d known hknown hname h =>
    have hfind : c.catalog.find? d.name = some known := SortedBy.find?_eq_some_iff.2 ⟨(hc.catalog known).2 hknown, hname⟩
    simp only [takeRecord, hfind, if_neg h]

/-! ## The run -/

/-- coherent records are all taken -/
theorem takeAll_ok {rs : List (ℕ × FactRecord)} (h : Coherent (rs.map Prod.snd)) :
    ∃ c, rs.foldlM takeRecord {} = .ok c ∧ c.Says (rs.map Prod.snd) := by
  refine Stream.taken_of_steps Coherent Says says_nil ?_ ?_ h
  · exact fun h => h.of_subset fun r => List.mem_append_left _
  · exact fun hc h => takeRecord_ok hc h

/-- the run ends at the first record that declares a type otherwise than one before it -/
theorem takeAll_error {before after : List (ℕ × FactRecord)} {r : ℕ × FactRecord} {name : String}
    (hbefore : Coherent (before.map Prod.snd)) (h : Clashes (before.map Prod.snd) r.2 name) :
    (before ++ r :: after).foldlM takeRecord {} = .error (.conflictingType r.1 name) := by
  obtain ⟨c, hfold, hc⟩ := takeAll_ok hbefore
  exact Stream.refused_at hfold (takeRecord_error hc h)

/-! ## The records of a configuration -/

theorem mem_records {c : Configuration} {d : TypeDecl} : .type d ∈ c.records ↔ d ∈ c.catalog := by
  simp only [records, List.mem_append, List.mem_map, List.mem_flatMap, FactRecord.type.injEq, exists_eq_right, reduceCtorEq,
    and_false, exists_false, or_false]
  rfl

theorem coherent_records (c : Configuration) : Coherent c.records :=
  fun _ _ hd he hname => SortedBy.eq_of_key_eq (mem_records.1 hd) (mem_records.1 he) hname

/-- what is stated about a target by the facts of several is what they have under it -/
theorem factsOf_targets (t : TypeRef) (es : List (TypeRef × List Fact)) :
    factsOf t (es.flatMap fun e => e.2.map (.fact e.1)) = (es.filter fun e => e.1 = t).flatMap Prod.snd := by
  induction es with
  | nil => rfl
  | cons e es ih =>
    have hfacts : factsOf t (e.2.map (.fact e.1)) = if e.1 = t then e.2 else [] := by
      rw [factsOf, List.filterMap_map]
      by_cases h : e.1 = t <;> simp [factOf, h]
    rw [List.flatMap_cons, factsOf, List.filterMap_append, ← factsOf, ← factsOf, ih, hfacts]
    by_cases h : e.1 = t <;> simp [h]

theorem factsOf_records (c : Configuration) (t : TypeRef) : factsOf t c.records = c.facts t := by
  have htypes : factsOf t (c.catalog.toList.map .type) = [] := by
    rw [factsOf, List.filterMap_map]
    exact List.filterMap_eq_nil_iff.2 fun _ _ => rfl
  rw [records, factsOf, List.filterMap_append, ← factsOf, ← factsOf, htypes, List.nil_append, factsOf_targets,
    SortedBy.filter_key, facts, SortedBy.get?]
  cases c.targets.find? t <;> simp

/-- a configuration says its own records if no target stands in it without facts -/
theorem says_records {c : Configuration} (h : ∀ e ∈ c.targets, e.2 ≠ []) : c.Says c.records :=
  ⟨fun _ => mem_records.symm, fun t => (factsOf_records c t).symm, h⟩

end Configuration

end MixinPlanner
