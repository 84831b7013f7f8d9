/-
A sorted collection is what its members are.

Collections keep one member for each key, so a search and an insertion can be said in terms of membership alone. Two
collections with the same members are equal (`eq_of_mem_iff`), and so are two in which the same is found under every key
(`eq_of_find?_eq`). A list in which no key is repeated keeps all its members when it is made a collection (`mem_ofList_iff`):
it is only sorted (`toList_ofList_eq_mergeSort`). The size of a collection counts its members (`encard_members`), and a new
key makes it larger by one (`size_insert`).

In what order members were inserted is forgotten (`insertAll_congr`). The keys are a set (`keys`), and insertions add the inserted
ones to it (`keys_insertAll`), so their order is known from which they are; only where a key was inserted more than once does it
matter which member came last (`insertAll_perm`, `get?_insertAll`).
-/
import Mathlib.Tactic
import Mathlib.Data.List.Sort
import Mathlib.Data.Set.Card
import MixinPlanner.SortedBy

namespace MixinPlanner.SortedBy

open Std

variable {α κ : Type} {key : α → κ} [Ord κ] [TransOrd κ]

/-- collections with the same members are equal -/
theorem eq_of_mem_iff {s t : SortedBy key} (h : ∀ a, a ∈ s ↔ a ∈ t) : s = t := by
  have hirrefl : Std.Irrefl fun a b => compare (key a) (key b) = .lt := ⟨fun a => by simp⟩
  have hantisymm : Std.Antisymm fun a b => compare (key a) (key b) = .lt :=
    ⟨fun a b hab hba => absurd (OrientedCmp.gt_of_lt hab) (by simp [hba])⟩
  exact ext (s.ascending.eq_of_mem_iff t.ascending h)

/-- no member is listed twice -/
theorem toList_nodup (s : SortedBy key) : s.toList.Nodup := by
  refine s.ascending.imp fun {a b} hab => ?_
  rintro rfl
  simp at hab

/-- the size counts the members -/
theorem encard_members (s : SortedBy key) : {a | a ∈ s}.encard = s.size := by
  classical
  have hlist : {a | a ∈ s} = (s.toList.toFinset : Set α) := by
    ext a
    rw [Finset.mem_coe, List.mem_toFinset]
    rfl
  rw [hlist, Set.encard_coe_eq_coe_finsetCard, List.toFinset_card_of_nodup s.toList_nodup]
  rfl

/-- no two members have one key -/
theorem eq_of_key_eq {s : SortedBy key} {a b : α} (ha : a ∈ s) (hb : b ∈ s) (h : key a = key b) : a = b := by
  have hfind := s.find?_of_mem ha
  rw [h, s.find?_of_mem hb] at hfind
  exact (Option.some.inj hfind).symm

variable [LawfulEqOrd κ]

theorem find?_eq_some_iff {s : SortedBy key} {k : κ} {a : α} : s.find? k = some a ↔ a ∈ s ∧ key a = k := by
  constructor
  · intro h
    refine ⟨mem_of_find? h, ?_⟩
    rw [find?_eq_findIn, findIn_eq_find? s.ascending] at h
    have hkey := List.find?_some h
    exact LawfulEqOrd.eq_of_compare (by simpa using hkey)
  · rintro ⟨ha, rfl⟩
    exact s.find?_of_mem ha

theorem find?_eq_none_iff {s : SortedBy key} {k : κ} : s.find? k = none ↔ ∀ a ∈ s, key a ≠ k := by
  rw [Option.eq_none_iff_forall_ne_some]
  exact forall_congr' fun a => by rw [Ne, find?_eq_some_iff, not_and]

/-- collections in which the same is found under every key are equal -/
theorem eq_of_find?_eq {s t : SortedBy key} (h : ∀ k, s.find? k = t.find? k) : s = t := by
  apply eq_of_mem_iff
  intro a
  have hs : s.find? (key a) = some a ↔ a ∈ s := by rw [find?_eq_some_iff, and_iff_left rfl]
  have ht : t.find? (key a) = some a ↔ a ∈ t := by rw [find?_eq_some_iff, and_iff_left rfl]
  rw [← hs, ← ht, h]

/-- the members with a key are the one that is found under it -/
theorem filter_key [DecidableEq κ] (s : SortedBy key) (k : κ) :
    (s.toList.filter fun a => key a = k) = (s.find? k).toList := by
  rw [find?_eq_findIn, findIn_eq_find? s.ascending]
  have hasc := s.ascending
  generalize s.toList = l at hasc
  induction l with
  | nil => rfl
  | cons a rest ih =>
    obtain ⟨ha, hrest⟩ := List.pairwise_cons.1 hasc
    by_cases hk : key a = k
    · -- those that follow have larger keys
      have hnone : ∀ b ∈ rest, ¬ key b = k := by
        intro b hb hbk
        simpa [hk, hbk] using ha b hb
      have hfilter : (rest.filter fun b => key b = k) = [] := by
        rw [List.filter_eq_nil_iff]
        simpa using hnone
      simp [hk, hfilter]
    · have hne : ¬ compare (key a) k = .eq := fun h => hk (LawfulEqOrd.eq_of_compare h)
      simp [hk, hne, ih hrest]

theorem contains_iff {s : SortedBy key} {k : κ} : s.contains k = true ↔ ∃ a ∈ s, key a = k := by
  rw [contains, Option.isSome_iff_exists]
  exact exists_congr fun a => find?_eq_some_iff

/-- an insertion replaces the member with the key of the new one, and keeps all others -/
theorem mem_insert_iff {s : SortedBy key} {a c : α} : c ∈ s.insert a ↔ c = a ∨ c ∈ s ∧ key a ≠ key c := by
  show c ∈ (s.insert a).toList ↔ c = a ∨ c ∈ s.toList ∧ key a ≠ key c
  rw [toList_insert, mem_place_iff s.ascending, Ne, LawfulEqOrd.compare_eq_iff_eq]

/-- a new key makes a collection larger by one -/
theorem size_insert {s : SortedBy key} {a : α} (h : ∀ b ∈ s, key a ≠ key b) : (s.insert a).size = s.size + 1 := by
  have hnew : a ∉ s.toList := fun ha => h a ha rfl
  have hperm : (s.insert a).toList.Perm (a :: s.toList) := by
    refine (List.perm_ext_iff_of_nodup (s.insert a).toList_nodup (List.nodup_cons.2 ⟨hnew, s.toList_nodup⟩)).2 ?_
    intro c
    rw [List.mem_cons]
    exact mem_insert_iff.trans (or_congr_right ⟨And.left, fun hc => ⟨hc, h c hc⟩⟩)
  exact hperm.length_eq

theorem mem_insertAll_iff {s : SortedBy key} {l : List α} (hl : (l.map key).Nodup)
    (hs : ∀ a ∈ s, ∀ b ∈ l, key a ≠ key b) {c : α} : c ∈ s.insertAll l ↔ c ∈ s ∨ c ∈ l := by
  unfold insertAll
  induction l generalizing s with
  | nil => simp
  | cons a l ih =>
    obtain ⟨ha, hl⟩ := List.nodup_cons.1 hl
    have hne : ∀ b ∈ l, key a ≠ key b := fun b hb h => ha (h ▸ List.mem_map_of_mem hb)
    have hnext : ∀ c ∈ s.insert a, ∀ b ∈ l, key c ≠ key b := by
      intro c hc b hb
      rcases mem_insert_iff.1 hc with rfl | ⟨hc, -⟩
      · exact hne b hb
      · exact hs c hc b (List.mem_cons_of_mem a hb)
    rw [List.foldl_cons, ih hl hnext, mem_insert_iff, List.mem_cons]
    constructor
    · rintro ((rfl | ⟨hc, -⟩) | hc)
      · exact .inr (.inl rfl)
      · exact .inl hc
      · exact .inr (.inr hc)
    · rintro (hc | rfl | hc)
      · exact .inl (.inr ⟨hc, (hs c hc a List.mem_cons_self).symm⟩)
      · exact .inl (.inl rfl)
      · exact .inr hc

/-- a list in which no key is repeated keeps all its members -/
theorem mem_ofList_iff {l : List α} (hl : (l.map key).Nodup) {c : α} : c ∈ (ofList l : SortedBy key) ↔ c ∈ l := by
  have hempty : ∀ a ∈ (empty : SortedBy key), ∀ b ∈ l, key a ≠ key b := fun a ha => absurd ha List.not_mem_nil
  exact (mem_insertAll_iff hl hempty).trans (or_iff_right List.not_mem_nil)

/-- a list in which no key is repeated is only sorted when it is made a collection -/
theorem toList_ofList_eq_mergeSort {l : List α} (hl : (l.map key).Nodup) :
    (ofList l : SortedBy key).toList = l.mergeSort fun a b => (compare (key a) (key b)).isLE := by
  have hasc := (ofList l : SortedBy key).ascending
  have hperm : (ofList l : SortedBy key).toList.Perm l :=
    (List.perm_ext_iff_of_nodup (ofList l : SortedBy key).toList_nodup hl.of_map).2 fun a => mem_ofList_iff hl
  have hsame : ∀ a b : α, a ∈ (ofList l : SortedBy key) → b ∈ (ofList l : SortedBy key) →
      (compare (key a) (key b)).isLE = true → (compare (key b) (key a)).isLE = true → a = b := by
    intro a b ha hb hab hba
    exact eq_of_key_eq ha hb (LawfulEqOrd.eq_of_compare (OrientedCmp.isLE_antisymm hab hba))
  have htotal : ∀ a b : α, ((compare (key a) (key b)).isLE || (compare (key b) (key a)).isLE) = true := by
    intro a b
    rw [Bool.or_eq_true, ← OrientedCmp.isGE_iff_isLE]
    cases compare (key b) (key a) <;> simp
  have hsorted : (l.mergeSort fun a b => (compare (key a) (key b)).isLE).Pairwise
      fun a b => (compare (key a) (key b)).isLE = true :=
    List.pairwise_mergeSort (fun _ _ _ => TransCmp.isLE_trans) htotal l
  refine (hperm.trans (List.mergeSort_perm l _).symm).eq_of_pairwise ?_ (hasc.imp fun {a b} hab => ?_) hsorted
  · intro a b ha hb
    exact hsame a b ha (hperm.mem_iff.2 (List.mem_mergeSort.1 hb))
  · rw [hab]
    rfl

/-! ## Sets -/

section Sets

variable [Ord α] [TransOrd α] [LawfulEqOrd α] {s : SortedSet α} {a : α}

theorem contains_iff_mem : s.contains a = true ↔ a ∈ s := by
  rw [contains_iff]
  exact exists_eq_right

theorem size_insert_of_not_mem (h : a ∉ s) : (s.insert a).size = s.size + 1 := by
  apply size_insert
  rintro b hb rfl
  exact h hb

theorem mem_ofList {l : List α} : a ∈ (ofList l : SortedSet α) ↔ a ∈ l :=
  mem_insertAll.trans (or_iff_right List.not_mem_nil)

/-- a set is the same after the same insertions, in whatever order and however often they were made -/
theorem insertAll_congr {l l' : List α} (h : ∀ a, a ∈ l ↔ a ∈ l') : s.insertAll l = s.insertAll l' := by
  refine eq_of_mem_iff fun a => ?_
  rw [mem_insertAll, mem_insertAll, h]

end Sets

/-! ## Tables -/

section Tables

variable {β : Type} {s t : SortedTable κ β}

theorem mem_iff_get? {e : κ × β} : e ∈ s ↔ s.get? e.1 = some e.2 := by
  rw [get?, Option.map_eq_some_iff]
  constructor
  · exact fun he => ⟨e, s.find?_of_mem he, rfl⟩
  · rintro ⟨e', hfind, hvalue⟩
    obtain ⟨he', hkey⟩ := find?_eq_some_iff.1 hfind
    rwa [← Prod.ext hkey hvalue]

/-- tables that hold the same for every key are equal -/
theorem eq_of_get?_eq (h : ∀ k, s.get? k = t.get? k) : s = t := by
  refine eq_of_mem_iff fun e => ?_
  rw [mem_iff_get?, mem_iff_get?, h]

variable [DecidableEq κ]

/-- of the values that a list has for a key, a table keeps the last -/
theorem get?_insertAll (t : SortedTable κ β) (l : List (κ × β)) (k : κ) :
    SortedBy.get? (t.insertAll l) k = (l.reverse.lookup k).or (t.get? k) := by
  induction l using List.reverseRecOn with
  | nil => rfl
  | append_singleton l e ih =>
    have hlast : t.insertAll (l ++ [e]) = (t.insertAll l).insert e := by
      rw [insertAll, List.foldl_concat, ← insertAll]
    rw [hlast, get?_insert, ih, List.reverse_concat, List.lookup_cons]
    by_cases h : k = e.1
    · rw [if_pos h.symm, beq_iff_eq.2 h]
      rfl
    · rw [if_neg (Ne.symm h), beq_eq_false_iff_ne.2 h]

theorem get?_ofList (l : List (κ × β)) (k : κ) : SortedBy.get? (ofList l : SortedTable κ β) k = l.reverse.lookup k := by
  rw [ofList, ← insertAll, get?_insertAll, get?_empty, Option.or_none]

theorem get?_eq_lookup (t : SortedTable κ β) (k : κ) : t.get? k = t.toList.reverse.lookup k := by
  rw [← get?_ofList, ofList_toList]

end Tables

/-! ## The order of insertion -/

/-- the keys of the members -/
def keys (s : SortedBy key) : SortedSet κ := ⟨s.toList.map key, List.pairwise_map.2 s.ascending⟩

omit [TransOrd κ] [LawfulEqOrd κ] in
theorem mem_keys {s : SortedBy key} {k : κ} : k ∈ s.keys ↔ ∃ a ∈ s, key a = k := List.mem_map

theorem keys_insert (s : SortedBy key) (a : α) : (s.insert a).keys = s.keys.insert (key a) := by
  refine eq_of_mem_iff fun k => ?_
  rw [mem_keys, mem_insert, mem_keys]
  constructor
  · rintro ⟨c, hc, rfl⟩
    rcases mem_insert_iff.1 hc with rfl | ⟨hc, -⟩
    · exact .inl rfl
    · exact .inr ⟨c, hc, rfl⟩
  · intro h
    by_cases hk : k = key a
    · exact ⟨a, mem_insert_iff.2 (.inl rfl), hk.symm⟩
    · obtain ⟨c, hc, rfl⟩ := h.resolve_left hk
      exact ⟨c, mem_insert_iff.2 (.inr ⟨hc, Ne.symm hk⟩), rfl⟩

/-- the keys after some insertions are those before, with the inserted ones as a set -/
theorem keys_insertAll (s : SortedBy key) (l : List α) : (s.insertAll l).keys = s.keys.insertAll (l.map key) := by
  unfold insertAll
  induction l generalizing s with
  | nil => rfl
  | cons a l ih => rw [List.foldl_cons, ih, keys_insert, List.map_cons, List.foldl_cons]

theorem mem_map_key_insertAll {s : SortedBy key} {l : List α} {k : κ} :
    k ∈ (s.insertAll l).toList.map key ↔ k ∈ s.toList.map key ∨ k ∈ l.map key := by
  show k ∈ (s.insertAll l).keys ↔ k ∈ s.keys ∨ k ∈ l.map key
  rw [keys_insertAll, mem_insertAll]

/-- the order of the keys is known from which were inserted, whatever the members were -/
theorem map_key_insertAll_congr {s : SortedBy key} {l l' : List α} (h : ∀ k, k ∈ l.map key ↔ k ∈ l'.map key) :
    (s.insertAll l).toList.map key = (s.insertAll l').toList.map key := by
  have hkeys : (s.insertAll l).keys = (s.insertAll l').keys := by
    rw [keys_insertAll, keys_insertAll, insertAll_congr h]
  exact congrArg toList hkeys

theorem get?_eq_none_iff {β : Type} {t : SortedTable κ β} {k : κ} : t.get? k = none ↔ k ∉ t.keys := by
  rw [get?, Option.map_eq_none_iff, find?_eq_none_iff, mem_keys, not_exists]
  exact forall_congr' fun e => not_and.symm

/-- members with different keys may be inserted in any order -/
theorem insertAll_perm (s : SortedBy key) {l l' : List α} (hl : (l.map key).Nodup) (h : l.Perm l') :
    s.insertAll l = s.insertAll l' := by
  classical
  refine h.foldl_eq' (fun a ha b hb s => ?_) s
  by_cases hab : key a = key b
  · rw [List.inj_on_of_nodup_map hl ha hb hab]
  · refine eq_of_find?_eq fun k => ?_
    rw [find?_insert, find?_insert, find?_insert, find?_insert]
    by_cases ha : key a = k
    · rw [if_pos ha, if_neg (ha ▸ Ne.symm hab), if_pos ha]
    · rw [if_neg ha, if_neg ha]

end MixinPlanner.SortedBy
