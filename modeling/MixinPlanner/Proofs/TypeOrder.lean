/-
The order of type references, and what is kept in it.

`TypeRef.Before` says when a reference comes before another: by the bytes of the names; then by the arguments, where the first
two that differ decide, or one list ends; open parameters come before types and are ordered by the bytes of their names, and
types are ordered as references again. It is a strict total order (`before_strictTotalOrder`), and comparing references decides it
(`compare_lt_iff`).

Comparing goes by characters, `Before` by bytes. That is the same, as characters have their bytes in the order of their numbers
(`utf8EncodeChar_lt`), so texts are compared as their bytes are (`utf8_lt_iff`).

Whatever is kept sorted by references has each once, and its order is known from which they are. So it does not matter in what
order they came: not for what a mixin suppresses, and for the targets of a configuration only how the facts of one target follow
each other (`pushAll_eq`).
-/
import Mathlib.Tactic
import MixinPlanner.Proofs.Streams

namespace MixinPlanner

open Std

/-! ## Texts and their bytes -/

theorem byte_lt_iff {m n : ℕ} (hm : m < 256) (hn : n < 256) : UInt8.ofNat m < UInt8.ofNat n ↔ m < n := by
  rw [UInt8.lt_iff_toNat_lt, UInt8.toNat_ofNat_of_lt' hm, UInt8.toNat_ofNat_of_lt' hn]

theorem byte_inj_iff {m n : ℕ} (hm : m < 256) (hn : n < 256) : UInt8.ofNat m = UInt8.ofNat n ↔ m = n := by
  rw [← UInt8.toNat_inj, UInt8.toNat_ofNat_of_lt' hm, UInt8.toNat_ofNat_of_lt' hn]

/-- how the digits of a character's number to the base 64 are had from each other -/
theorem charDigits {n : ℕ} (h : n < 0x110000) :
    n / 64 / 64 = n / 4096 ∧ n / 4096 / 64 = n / 262144 ∧ n / 262144 % 8 = n / 262144 := by
  refine ⟨Nat.div_div_eq_div_mul n 64 64, Nat.div_div_eq_div_mul n 4096 64, Nat.mod_eq_of_lt ?_⟩
  omega

/-- the bytes of a smaller character come first, whatever follows them: it has fewer, and then a smaller first one, or as many,
and then the first digit that differs is smaller -/
theorem utf8EncodeChar_lt {c d : Char} (h : c < d) (x y : List UInt8) :
    String.utf8EncodeChar c ++ x < String.utf8EncodeChar d ++ y := by
  have hcd : c.val.toNat < d.val.toNat := h
  have hbound : d.val.toNat < 0x110000 := by
    have hvalid : d.val.toNat < 0xd800 ∨ 0xdfff < d.val.toNat ∧ d.val.toNat < 0x110000 := d.valid
    omega
  simp only [String.utf8EncodeChar]
  generalize c.val.toNat = m at hcd
  generalize d.val.toNat = n at hcd hbound
  obtain ⟨hm₂, hm₃, hm₄⟩ := charDigits (hcd.trans hbound)
  obtain ⟨hn₂, hn₃, hn₄⟩ := charDigits hbound
  split_ifs <;>
    simp (disch := omega) only [List.cons_append, List.nil_append, List.cons_lt_cons_iff, byte_lt_iff, byte_inj_iff] <;>
    omega

theorem append_lt_append_iff (l x y : List UInt8) : l ++ x < l ++ y ↔ x < y := by
  induction l with
  | nil => rfl
  | cons b l ih =>
    rw [List.cons_append, List.cons_append, List.cons_lt_cons_iff, ih]
    simp

theorem flatMap_utf8_lt_iff {cs ds : List Char} :
    cs.flatMap String.utf8EncodeChar < ds.flatMap String.utf8EncodeChar ↔ cs < ds := by
  induction cs generalizing ds with
  | nil =>
    cases ds with
    | nil => simp
    | cons d ds =>
      obtain ⟨b, l, hd⟩ := List.exists_cons_of_ne_nil (String.utf8EncodeChar_ne_nil (c := d))
      rw [List.flatMap_cons, hd]
      simp
  | cons c cs ih =>
    cases ds with
    | nil => simp
    | cons d ds =>
      rw [List.flatMap_cons, List.flatMap_cons, List.cons_lt_cons_iff]
      rcases Std.lt_trichotomy c d with h | rfl | h
      · exact iff_of_true (utf8EncodeChar_lt h _ _) (.inl h)
      · rw [append_lt_append_iff, ih]
        simp
      · refine iff_of_false (fun hlt => List.lt_asymm hlt (utf8EncodeChar_lt h _ _)) ?_
        rintro (hlt | ⟨rfl, -⟩)
        · exact Char.lt_asymm h hlt
        · exact Char.lt_irrefl c h

/-- texts are in the order of their bytes -/
theorem utf8_lt_iff {s t : String} : utf8 s < utf8 t ↔ s < t := by
  rw [String.lt_iff, ← flatMap_utf8_lt_iff, ← Stream.utf8_ofList, ← Stream.utf8_ofList, String.ofList_toList,
    String.ofList_toList]

theorem compare_text_lt_iff {s t : String} : compare s t = .lt ↔ utf8 s < utf8 t :=
  compareOfLessAndEq_eq_lt.trans utf8_lt_iff.symm

/-! ## The order of references -/

mutual

/-- a reference comes before another by the bytes of their names, or under one name by the arguments -/
inductive TypeRef.Before : TypeRef → TypeRef → Prop
  | name {n m : String} {as bs : List TypeArg} (h : utf8 n < utf8 m) : TypeRef.Before ⟨n, as⟩ ⟨m, bs⟩
  | args {n : String} {as bs : List TypeArg} (h : List.Lex TypeArg.Before as bs) : TypeRef.Before ⟨n, as⟩ ⟨n, bs⟩

/-- an argument comes before another: parameters by the bytes of their names, any parameter before any type, types as
references -/
inductive TypeArg.Before : TypeArg → TypeArg → Prop
  | params {p q : String} (h : utf8 p < utf8 q) : TypeArg.Before (.param p) (.param q)
  | paramType (p : String) (t : TypeRef) : TypeArg.Before (.param p) (.closed t)
  | types {t u : TypeRef} (h : TypeRef.Before t u) : TypeArg.Before (.closed t) (.closed u)

end

mutual

theorem TypeRef.compare_lt_iff (t u : TypeRef) : t.compare u = .lt ↔ t.Before u := by
  cases t with
  | mk n as =>
    cases u with
    | mk m bs =>
      rw [TypeRef.compare, Ordering.then_eq_lt, LawfulEqOrd.compare_eq_iff_eq, compare_text_lt_iff,
        TypeArg.compareAll_lt_iff as bs]
      constructor
      · rintro (h | ⟨rfl, h⟩)
        · exact .name h
        · exact .args h
      · rintro (h | h)
        · exact .inl h
        · exact .inr ⟨rfl, h⟩

theorem TypeArg.compareAll_lt_iff (as bs : List TypeArg) :
    TypeArg.compareAll as bs = .lt ↔ List.Lex TypeArg.Before as bs := by
  cases as with
  | nil =>
    cases bs with
    | nil => exact iff_of_false (by simp [TypeArg.compareAll]) List.not_lex_nil
    | cons b bs => exact iff_of_true rfl .nil
  | cons a as =>
    cases bs with
    | nil => exact iff_of_false (by simp [TypeArg.compareAll]) List.not_lex_nil
    | cons b bs =>
      have heq : a.compare b = .eq ↔ a = b := ⟨TypeArg.eq_of_compare a b, fun h => h ▸ TypeArg.compare_self a⟩
      rw [TypeArg.compareAll, Ordering.then_eq_lt, heq, TypeArg.compare_lt_iff a b, TypeArg.compareAll_lt_iff as bs,
        List.cons_lex_cons_iff]

theorem TypeArg.compare_lt_iff (a b : TypeArg) : a.compare b = .lt ↔ a.Before b := by
  cases a with
  | param p =>
    cases b with
    | param q =>
      rw [TypeArg.compare, compare_text_lt_iff]
      exact ⟨.params, fun | .params h => h⟩
    | closed u => exact iff_of_true rfl (.paramType p u)
  | closed t =>
    cases b with
    | param q => exact iff_of_false (by simp [TypeArg.compare]) nofun
    | closed u =>
      rw [TypeArg.compare, TypeRef.compare_lt_iff t u]
      exact ⟨.types, fun | .types h => h⟩

end

namespace TypeRef

theorem compare_gt_iff (t u : TypeRef) : t.compare u = .gt ↔ u.Before t := by
  rw [compare_swap, Ordering.swap_eq_gt, compare_lt_iff]

theorem compare_eq_iff (t u : TypeRef) : t.compare u = .eq ↔ t = u :=
  ⟨eq_of_compare t u, fun h => h ▸ compare_self t⟩

/-- **The order of references is a strict total order.** -/
theorem before_strictTotalOrder : IsStrictTotalOrder TypeRef Before where
  irrefl t h := by
    have hlt := (compare_lt_iff t t).2 h
    rw [compare_self] at hlt
    cases hlt
  trans t u v htu huv := by
    rw [← compare_lt_iff] at htu huv ⊢
    have htv : Ord.compare t v = .lt := TransCmp.lt_trans (show Ord.compare t u = .lt from htu) huv
    exact htv
  trichotomous t u htu hut := by
    rw [← compare_lt_iff] at htu
    rw [← compare_gt_iff] at hut
    cases h : t.compare u with
    | lt => exact absurd h htu
    | eq => exact eq_of_compare t u h
    | gt => exact absurd h hut

end TypeRef

/-! ## What is kept in order -/

/-- whatever is kept sorted by references is listed in their order -/
theorem keys_before {α : Type} {key : α → TypeRef} (s : SortedBy key) : (s.toList.map key).Pairwise TypeRef.Before :=
  s.keys.ascending.imp fun {t u} => (TypeRef.compare_lt_iff t u).1

/-- two declarations of a mixin suppress together what they suppress, whichever is merged into the other -/
theorem MixinFact.absorb_suppresses (f g : MixinFact) : (f.absorb g).suppresses = (g.absorb f).suppresses := by
  refine SortedBy.eq_of_mem_iff fun t => ?_
  exact SortedBy.mem_insertAll.trans (or_comm.trans SortedBy.mem_insertAll.symm)

namespace Configuration

/-- facts about targets, each at the end of what is known about its target -/
def pushAll (c : Configuration) (es : List (TypeRef × Fact)) : Configuration := es.foldl (fun c e => c.push e.1 e.2) c

/-- the facts about one target among facts about several -/
def about (t : TypeRef) (es : List (TypeRef × Fact)) : List Fact := (es.filter fun e => e.1 = t).map Prod.snd

theorem catalog_pushAll (c : Configuration) (es : List (TypeRef × Fact)) : (c.pushAll es).catalog = c.catalog := by
  unfold pushAll
  induction es generalizing c with
  | nil => rfl
  | cons e es ih => exact ih (c.push e.1 e.2)

theorem facts_pushAll (c : Configuration) (es : List (TypeRef × Fact)) (t : TypeRef) :
    (c.pushAll es).facts t = c.facts t ++ about t es := by
  unfold pushAll
  induction es generalizing c with
  | nil => exact (List.append_nil _).symm
  | cons e es ih =>
    rw [List.foldl_cons, ih, facts_push]
    by_cases h : e.1 = t
    · subst h
      simp [about]
    · simp [about, h]

theorem targets_pushAll (c : Configuration) (es : List (TypeRef × Fact)) :
    (c.pushAll es).targets.keys = c.targets.keys.insertAll (es.map Prod.fst) := by
  unfold pushAll SortedBy.insertAll
  induction es generalizing c with
  | nil => rfl
  | cons e es ih => rw [List.foldl_cons, ih, push, SortedBy.keys_insert, List.map_cons, List.foldl_cons]

theorem mem_targets_pushAll (c : Configuration) (es : List (TypeRef × Fact)) (t : TypeRef) :
    t ∈ (c.pushAll es).targets.toList.map Prod.fst ↔ t ∈ c.targets.toList.map Prod.fst ∨ t ∈ es.map Prod.fst := by
  show t ∈ (c.pushAll es).targets.keys ↔ t ∈ c.targets.keys ∨ t ∈ es.map Prod.fst
  rw [targets_pushAll, SortedBy.mem_insertAll]

theorem mem_targets_iff_about {t : TypeRef} {es : List (TypeRef × Fact)} : t ∈ es.map Prod.fst ↔ about t es ≠ [] := by
  simp [about]

/-- what is held for a target are its facts, if it is there at all -/
theorem get?_targets (c : Configuration) (t : TypeRef) :
    c.targets.get? t = if t ∈ c.targets.keys.toList then some (c.facts t) else none := by
  rw [facts]
  cases h : c.targets.get? t with
  | none => exact (if_neg (SortedBy.get?_eq_none_iff.1 h)).symm
  | some fs =>
    have hmem : t ∈ c.targets.keys := by
      by_contra hnot
      rw [SortedBy.get?_eq_none_iff.2 hnot] at h
      cases h
    exact (if_pos hmem).symm

/-- **Facts about different targets may come in any order.** -/
theorem pushAll_eq (c : Configuration) {es es' : List (TypeRef × Fact)} (h : ∀ t, about t es = about t es') :
    c.pushAll es = c.pushAll es' := by
  have hkeys : (c.pushAll es).targets.keys = (c.pushAll es').targets.keys := by
    rw [targets_pushAll, targets_pushAll]
    refine SortedBy.insertAll_congr fun t => ?_
    rw [mem_targets_iff_about, mem_targets_iff_about, h]
  have htargets : (c.pushAll es).targets = (c.pushAll es').targets := by
    refine SortedBy.eq_of_get?_eq fun t => ?_
    rw [get?_targets, get?_targets, hkeys, facts_pushAll, facts_pushAll, h]
  exact eq_of_parts ((c.catalog_pushAll es).trans (c.catalog_pushAll es').symm) htargets

end Configuration

/-- **Type references are lawfully ordered.** Their order is a strict total order, which comparing decides; so they compare equal
only if they are the same.

What is kept sorted by references is listed in that order, each reference once. After some insertions its keys are those before
and the inserted ones, so their order is known from which they are. A set is known from the members that were inserted, in
whatever order and however often, and any collection from members with different keys, in whatever order. So it is with what a
fact suppresses, also when two declarations of a mixin are merged, and with the targets of a configuration, where the facts of
one target keep their order and those of different targets may be mixed. -/
theorem types_lawfully_ordered :
    IsStrictTotalOrder TypeRef TypeRef.Before ∧
      (∀ t u : TypeRef, (compare t u = .lt ↔ t.Before u) ∧ (compare t u = .eq ↔ t = u) ∧
        (compare t u = .gt ↔ u.Before t)) ∧
      (∀ (α : Type) (key : α → TypeRef) (s : SortedBy key),
        (s.toList.map key).Pairwise TypeRef.Before ∧ (s.toList.map key).Nodup) ∧
      (∀ (α : Type) (key : α → TypeRef) (s : SortedBy key) (l : List α) (t : TypeRef),
        t ∈ (s.insertAll l).toList.map key ↔ t ∈ s.toList.map key ∨ t ∈ l.map key) ∧
      (∀ (α : Type) (key : α → TypeRef) (s : SortedBy key) (l l' : List α),
        (∀ t, t ∈ l.map key ↔ t ∈ l'.map key) →
          (s.insertAll l).toList.map key = (s.insertAll l').toList.map key) ∧
      (∀ (s : SortedSet TypeRef) (l l' : List TypeRef), (∀ t, t ∈ l ↔ t ∈ l') → s.insertAll l = s.insertAll l') ∧
      (∀ (α : Type) (key : α → TypeRef) (s : SortedBy key) (l l' : List α), (l.map key).Nodup → l.Perm l' →
        s.insertAll l = s.insertAll l') ∧
      (∀ (f : MixinFact) (l l' : List TypeRef), (∀ t, t ∈ l ↔ t ∈ l') →
        l.foldl MixinFact.suppress f = l'.foldl MixinFact.suppress f) ∧
      (∀ f g : MixinFact, (f.absorb g).suppresses = (g.absorb f).suppresses) ∧
      (∀ (c : Configuration) (es : List (TypeRef × Fact)) (t : TypeRef),
        (t ∈ (c.pushAll es).targets.toList.map Prod.fst ↔ t ∈ c.targets.toList.map Prod.fst ∨ t ∈ es.map Prod.fst) ∧
          (c.pushAll es).facts t = c.facts t ++ Configuration.about t es) ∧
      ∀ (c : Configuration) (es es' : List (TypeRef × Fact)),
        (∀ t, Configuration.about t es = Configuration.about t es') → c.pushAll es = c.pushAll es' := by
  refine ⟨TypeRef.before_strictTotalOrder, fun t u => ⟨?_, ?_, ?_⟩, fun _ _ s => ⟨keys_before s, s.keys.toList_nodup⟩,
    fun _ _ _ _ _ => SortedBy.mem_map_key_insertAll, fun _ _ _ _ _ h => SortedBy.map_key_insertAll_congr h,
    fun _ _ _ h => SortedBy.insertAll_congr h, fun _ _ s _ _ hl h => s.insertAll_perm hl h, fun f l l' h => ?_,
    fun f g => f.absorb_suppresses g,
    fun c es t => ⟨c.mem_targets_pushAll es t, c.facts_pushAll es t⟩, fun c _ _ h => c.pushAll_eq h⟩
  · exact TypeRef.compare_lt_iff t u
  · exact TypeRef.compare_eq_iff t u
  · exact TypeRef.compare_gt_iff t u
  · rw [f.foldl_suppress, f.foldl_suppress, SortedBy.insertAll_congr h]

/-- an application of a type, and a type with a dot in its name: the name of the application is shorter, so it comes first, though
its text does not -/
def appliedType : TypeRef := ⟨"A", [.closed ⟨"B", []⟩]⟩

def dottedType : TypeRef := ⟨"A.B", []⟩

/-- two facts about the one and a fact about the other, in the order in which they were stated -/
def statedFacts : List (TypeRef × Fact) :=
  [(dottedType, .completeInterface ⟨⟨"Traced", []⟩, none⟩), (appliedType, .mixin { mixin := ⟨"Logging", []⟩ }),
    (dottedType, .mixin { mixin := ⟨"Audit", []⟩ })]

/-- the facts about one type first -/
def sortedFacts : List (TypeRef × Fact) :=
  [(appliedType, .mixin { mixin := ⟨"Logging", []⟩ }), (dottedType, .completeInterface ⟨⟨"Traced", []⟩, none⟩),
    (dottedType, .mixin { mixin := ⟨"Audit", []⟩ })]

/-- a set has the two and a fact suppresses them, whichever is named first and however often; a table lists both in their order,
whichever was put in first and even if another value was put in later; and it makes no difference how the facts about them were
mixed -/
theorem dotted_type_ordered :
    (appliedType.Before dottedType ∧ dottedType.text < appliedType.text) ∧
      ((∀ t, t ∈ [dottedType, appliedType, dottedType] ↔ t ∈ [appliedType, dottedType]) ∧
        (SortedBy.ofList [dottedType, appliedType, dottedType] : SortedSet TypeRef) = .ofList [appliedType, dottedType] ∧
        [dottedType, appliedType, dottedType].foldl MixinFact.suppress { mixin := dottedType } =
          [appliedType, dottedType].foldl MixinFact.suppress { mixin := dottedType }) ∧
      (([(dottedType, 1), (appliedType, 2)].map Prod.fst).Nodup ∧
        [(dottedType, 1), (appliedType, 2)].Perm [(appliedType, 2), (dottedType, 1)] ∧
        (SortedBy.ofList [(dottedType, 1), (appliedType, 2)] : SortedTable TypeRef ℕ) =
          .ofList [(appliedType, 2), (dottedType, 1)]) ∧
      ((∀ t, t ∈ [(dottedType, 1), (appliedType, 2), (dottedType, 3)].map Prod.fst ↔
          t ∈ [(appliedType, 2), (dottedType, 1)].map Prod.fst) ∧
        (SortedBy.ofList [(dottedType, 1), (appliedType, 2), (dottedType, 3)] : SortedTable TypeRef ℕ).toList.map Prod.fst =
          (SortedBy.ofList [(appliedType, 2), (dottedType, 1)] : SortedTable TypeRef ℕ).toList.map Prod.fst) ∧
      (∀ t, Configuration.about t statedFacts = Configuration.about t sortedFacts) ∧
      Configuration.pushAll {} statedFacts = Configuration.pushAll {} sortedFacts := by
  obtain ⟨-, hcompare, -, -, hkeys, hset, hperm, hsuppress, -, -, hpush⟩ := types_lawfully_ordered
  have hmem : ∀ t, t ∈ [dottedType, appliedType, dottedType] ↔ t ∈ [appliedType, dottedType] := by
    intro t
    simp only [List.mem_cons, List.not_mem_nil, or_false]
    tauto
  have hnodup : ([(dottedType, 1), (appliedType, 2)].map Prod.fst).Nodup := by decide
  have hswap : [(dottedType, 1), (appliedType, 2)].Perm [(appliedType, 2), (dottedType, 1)] := .swap _ _ _
  have habout : ∀ t, Configuration.about t statedFacts = Configuration.about t sortedFacts := by
    intro t
    by_cases ha : appliedType = t
    · subst ha
      decide
    · by_cases hd : dottedType = t
      · subst hd
        decide
      · simp [Configuration.about, statedFacts, sortedFacts, ha, hd]
  exact ⟨⟨(hcompare _ _).1.1 (by decide), by decide⟩, ⟨hmem, hset _ _ _ hmem, hsuppress _ _ _ hmem⟩,
    ⟨hnodup, hswap, hperm _ _ _ _ _ hnodup hswap⟩, ⟨hmem, hkeys _ _ _ _ _ hmem⟩, habout, hpush _ _ _ habout⟩

end MixinPlanner
