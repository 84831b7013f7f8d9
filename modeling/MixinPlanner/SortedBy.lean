/-
Collections kept in ascending order of a key, each key at most once.

`SortedBy key` is the one container of the library: a set of names is sorted by the name itself, a catalog by the names
of its declarations, a plan set by the targets of its plans, a table of pairs by first components. The order is part of
the type, so two collections with the same members are equal as values, whatever was added first.

`place_ascending` says that putting a member in its place keeps the order, so every operation below yields a value of the
type; `mem_place` that it adds no other member; `findIn_eq_find?` that a search may end at the first larger key, and
`find?_insert` what a search finds after an insertion. A key that the last member comes before needs no search at all;
`find?_eq_findIn` and `toList_insert` say that it could be searched for like any other. Members that are added in order stay
in it (`ascending_next`, `toList_insertAll`), so a collection is that of the list of its members (`ofList_toList`).
-/

namespace MixinPlanner

open Std

variable {α : Type} {κ : Type}

/-- the members in strictly ascending order of their keys -/
structure SortedBy (key : α → κ) [Ord κ] where
  toList : List α
  ascending : toList.Pairwise fun a b => compare (key a) (key b) = .lt

namespace SortedBy

variable {key : α → κ} [Ord κ]

/-- two collections are equal when their lists of members are -/
@[ext]
theorem ext {s t : SortedBy key} (h : s.toList = t.toList) : s = t := by
  cases s; cases t; cases h; rfl

instance [DecidableEq α] : DecidableEq (SortedBy key) := fun s t =>
  decidable_of_iff (s.toList = t.toList) ⟨ext, fun h => h ▸ rfl⟩

/-- no members -/
def empty : SortedBy key := ⟨[], .nil⟩

instance : EmptyCollection (SortedBy key) := ⟨empty⟩

instance : Inhabited (SortedBy key) := ⟨empty⟩

/-- the number of members -/
def size (s : SortedBy key) : Nat := s.toList.length

/-- whether there is no member -/
def isEmpty (s : SortedBy key) : Bool := s.toList.isEmpty

/-- the member of an ascending list under a key. The search ends at the first larger key. -/
def findIn (key : α → κ) (k : κ) : List α → Option α
  | [] => none
  | a :: rest =>
    match compare (key a) k with
    | .lt => findIn key k rest
    | .eq => some a
    | .gt => none

/-- ending at the first larger key misses nothing -/
theorem findIn_eq_find? [TransOrd κ] {k : κ} {l : List α}
    (h : l.Pairwise fun a b => compare (key a) (key b) = .lt) :
    findIn key k l = l.find? fun a => compare (key a) k == .eq := by
  induction l with
  | nil => rfl
  | cons a rest ih =>
    obtain ⟨ha, hrest⟩ := List.pairwise_cons.1 h
    simp only [findIn]
    split
    next hk => simp [hk, ih hrest]
    next hk => simp [hk]
    next hk =>
      refine (List.find?_eq_none.2 fun b hb => ?_).symm
      rcases List.mem_cons.1 hb with rfl | hb
      · simp [hk]
      · have hlt : compare k (key b) = .lt := TransCmp.lt_trans (OrientedCmp.lt_of_gt hk) (ha b hb)
        simp [OrientedCmp.gt_of_lt hlt]

/-- whether the last member of a list comes before a key -/
def endsBefore (key : α → κ) (k : κ) (l : List α) : Bool :=
  l.getLast?.any fun a => compare (key a) k == .lt

/-- when the last member of an ascending list comes before a key, every member does -/
theorem lt_of_endsBefore [TransOrd κ] {k : κ} {l : List α}
    (h : l.Pairwise fun a b => compare (key a) (key b) = .lt) (hk : endsBefore key k l) :
    ∀ a ∈ l, compare (key a) k = .lt := by
  induction l with
  | nil => simp
  | cons a rest ih =>
    obtain ⟨ha, hrest⟩ := List.pairwise_cons.1 h
    cases rest with
    | nil => simpa [endsBefore] using hk
    | cons b rest =>
      have hk' : endsBefore key k (b :: rest) := by simpa [endsBefore] using hk
      refine List.forall_mem_cons.2 ⟨?_, ih hrest hk'⟩
      exact TransCmp.lt_trans (ha b List.mem_cons_self) (ih hrest hk' b List.mem_cons_self)

/-- a key that comes after all is under none -/
theorem findIn_eq_none {k : κ} {l : List α} (h : ∀ a ∈ l, compare (key a) k = .lt) : findIn key k l = none := by
  induction l with
  | nil => rfl
  | cons a rest ih =>
    obtain ⟨ha, hrest⟩ := List.forall_mem_cons.1 h
    simp [findIn, ha, ih hrest]

/-- the member of a collection under a key -/
def find? (s : SortedBy key) (k : κ) : Option α :=
  if endsBefore key k s.toList then none else findIn key k s.toList

theorem find?_eq_findIn [TransOrd κ] (s : SortedBy key) (k : κ) : s.find? k = findIn key k s.toList := by
  unfold find?
  split
  next h => exact (findIn_eq_none (lt_of_endsBefore s.ascending h)).symm
  next => rfl

/-- every member is found under its key -/
theorem find?_of_mem [TransOrd κ] (s : SortedBy key) {a : α} (h : a ∈ s.toList) : s.find? (key a) = some a := by
  rw [find?_eq_findIn, findIn_eq_find? s.ascending]
  have hasc := s.ascending
  generalize s.toList = l at h hasc
  induction l with
  | nil => cases h
  | cons b rest ih =>
    obtain ⟨hb, hrest⟩ := List.pairwise_cons.1 hasc
    rcases List.mem_cons.1 h with rfl | h
    · simp [ReflCmp.compare_self]
    · simp [hb a h, ih h hrest]

theorem mem_of_find? [TransOrd κ] {s : SortedBy key} {k : κ} {a : α} (h : s.find? k = some a) : a ∈ s.toList := by
  rw [find?_eq_findIn, findIn_eq_find? s.ascending] at h
  exact List.mem_of_find?_eq_some h

/-- nothing is found under a key that comes after all -/
theorem find?_of_lt [TransOrd κ] {s : SortedBy key} {k : κ} (h : ∀ a ∈ s.toList, compare (key a) k = .lt) :
    s.find? k = none := by
  rw [find?_eq_findIn, findIn_eq_none h]

/-- whether some member has the key -/
def contains (s : SortedBy key) (k : κ) : Bool :=
  (s.find? k).isSome

instance : Membership α (SortedBy key) := ⟨fun s a => a ∈ s.toList⟩

/-- a member put before the first one with a larger key, in place of the one with its own key -/
def place (key : α → κ) (a : α) : List α → List α
  | [] => [a]
  | b :: rest =>
    match compare (key a) (key b) with
    | .lt => a :: b :: rest
    | .eq => a :: rest
    | .gt => b :: place key a rest

theorem mem_place {a c : α} {l : List α} (h : c ∈ place key a l) : c = a ∨ c ∈ l := by
  induction l with
  | nil => simpa [place] using h
  | cons b rest ih =>
    simp only [place] at h
    split at h
    · simpa using h
    · rcases List.mem_cons.1 h with h | h
      · exact .inl h
      · exact .inr (List.mem_cons_of_mem _ h)
    · rcases List.mem_cons.1 h with h | h
      · exact .inr (h ▸ List.mem_cons_self)
      · exact (ih h).imp id (List.mem_cons_of_mem _)

theorem find?_place [LawfulEqOrd κ] (a : α) (l : List α) (k : κ) :
    ((place key a l).find? fun b => compare (key b) k == .eq) =
      if compare (key a) k = .eq then some a else l.find? fun b => compare (key b) k == .eq := by
  induction l with
  | nil => by_cases h : compare (key a) k = .eq <;> simp [place, h]
  | cons b rest ih =>
    simp only [place]
    split
    next => by_cases h : compare (key a) k = .eq <;> simp [h]
    next hab =>
      have hkey : key a = key b := LawfulEqOrd.eq_of_compare hab
      by_cases h : compare (key a) k = .eq
      · simp [h]
      · simp [h, hkey ▸ h]
    next hab =>
      by_cases hb : compare (key b) k = .eq
      · have hne : compare (key a) k ≠ .eq := by
          rw [← LawfulEqOrd.eq_of_compare hb, hab]
          decide
        simp [hb, hne]
      · simp [hb, ih]

theorem place_ascending [TransOrd κ] {a : α} {l : List α}
    (h : l.Pairwise fun a b => compare (key a) (key b) = .lt) :
    (place key a l).Pairwise fun a b => compare (key a) (key b) = .lt := by
  induction l with
  | nil => simp [place]
  | cons b rest ih =>
    obtain ⟨hb, hrest⟩ := List.pairwise_cons.1 h
    simp only [place]
    split
    next hab =>
      refine List.pairwise_cons.2 ⟨fun c hc => ?_, h⟩
      rcases List.mem_cons.1 hc with rfl | hc
      · exact hab
      · exact TransCmp.lt_trans hab (hb c hc)
    next hab => exact List.pairwise_cons.2 ⟨fun c hc => TransCmp.lt_of_eq_of_lt hab (hb c hc), hrest⟩
    next hab =>
      refine List.pairwise_cons.2 ⟨fun c hc => ?_, ih hrest⟩
      rcases mem_place hc with rfl | hc
      · exact OrientedCmp.lt_of_gt hab
      · exact hb c hc

/-- a member put in its place replaces the one with its key, and keeps all others -/
theorem mem_place_iff [TransOrd κ] {a c : α} {l : List α} (h : l.Pairwise fun a b => compare (key a) (key b) = .lt) :
    c ∈ place key a l ↔ c = a ∨ c ∈ l ∧ compare (key a) (key c) ≠ .eq := by
  induction l with
  | nil => simp [place]
  | cons b rest ih =>
    obtain ⟨hb, hrest⟩ := List.pairwise_cons.1 h
    simp only [place]
    split
    next hab =>
      have hne : ∀ c ∈ b :: rest, compare (key a) (key c) ≠ .eq := by
        intro c hc
        rcases List.mem_cons.1 hc with rfl | hc
        · simp [hab]
        · simp [TransCmp.lt_trans hab (hb c hc)]
      rw [List.mem_cons]
      exact or_congr_right ⟨fun hc => ⟨hc, hne c hc⟩, fun hc => hc.1⟩
    next hab =>
      rw [List.mem_cons]
      refine or_congr_right ⟨fun hc => ⟨List.mem_cons_of_mem _ hc, ?_⟩, fun ⟨hc, hne⟩ => ?_⟩
      · simp [TransCmp.lt_of_eq_of_lt hab (hb c hc)]
      · rcases List.mem_cons.1 hc with rfl | hc
        · exact absurd hab hne
        · exact hc
    next hab =>
      rw [List.mem_cons, List.mem_cons, ih hrest]
      constructor
      · rintro (rfl | rfl | ⟨hc, hne⟩)
        · exact .inr ⟨.inl rfl, by simp [hab]⟩
        · exact .inl rfl
        · exact .inr ⟨.inr hc, hne⟩
      · rintro (rfl | ⟨rfl | hc, hne⟩)
        · exact .inr (.inl rfl)
        · exact .inl rfl
        · exact .inr (.inr ⟨hc, hne⟩)

/-- a member that comes after all has its place at the end -/
theorem place_eq_append [OrientedOrd κ] {a : α} {l : List α} (h : ∀ b ∈ l, compare (key b) (key a) = .lt) :
    place key a l = l ++ [a] := by
  induction l with
  | nil => rfl
  | cons b rest ih =>
    obtain ⟨hb, hrest⟩ := List.forall_mem_cons.1 h
    simp [place, OrientedCmp.gt_of_lt hb, ih hrest]

theorem append_ascending [TransOrd κ] {a : α} {l : List α}
    (h : l.Pairwise fun a b => compare (key a) (key b) = .lt) (ha : endsBefore key (key a) l) :
    (l ++ [a]).Pairwise fun a b => compare (key a) (key b) = .lt :=
  place_eq_append (lt_of_endsBefore h ha) ▸ place_ascending h

/-- the collection without the member under a key -/
def erase (s : SortedBy key) (k : κ) : SortedBy key :=
  ⟨s.toList.filter fun a => compare (key a) k != .eq, s.ascending.filter _⟩

variable [TransOrd κ]

/-- the collection with one member more, or with that member in place of the one that had its key -/
def insert (a : α) (s : SortedBy key) : SortedBy key :=
  if h : endsBefore key (key a) s.toList then ⟨s.toList ++ [a], append_ascending s.ascending h⟩
  else ⟨place key a s.toList, place_ascending s.ascending⟩

@[simp]
theorem toList_insert (a : α) (s : SortedBy key) : (s.insert a).toList = place key a s.toList := by
  unfold insert
  split
  next h => exact (place_eq_append (lt_of_endsBefore s.ascending h)).symm
  next => rfl

/-- a search after an insertion finds the new member or what it found before -/
theorem find?_insert [LawfulEqOrd κ] [DecidableEq κ] (s : SortedBy key) (a : α) (k : κ) :
    (s.insert a).find? k = if key a = k then some a else s.find? k := by
  rw [find?_eq_findIn, find?_eq_findIn, findIn_eq_find? (s.insert a).ascending, findIn_eq_find? s.ascending,
    toList_insert, find?_place]
  simp only [LawfulEqOrd.compare_eq_iff_eq]

/-- the collection of a list: of two members with one key the later stands -/
def ofList (l : List α) : SortedBy key :=
  l.foldl (fun s a => s.insert a) empty

/-- the collection with every member of a list inserted in turn -/
def insertAll (s : SortedBy key) (l : List α) : SortedBy key :=
  l.foldl (fun s a => s.insert a) s

/-! ### Members added in order -/

theorem toList_insert_of_lt {s : SortedBy key} {a : α} (h : ∀ b ∈ s.toList, compare (key b) (key a) = .lt) :
    (s.insert a).toList = s.toList ++ [a] := by rw [toList_insert, place_eq_append h]

section Next

variable {s : SortedBy key} {a : α} {l : List α}
  (h : (s.toList ++ a :: l).Pairwise fun a b => compare (key a) (key b) = .lt)

include h

omit [TransOrd κ] in
theorem lt_next : ∀ b ∈ s.toList, compare (key b) (key a) = .lt :=
  fun b hb => (List.pairwise_append.1 h).2.2 b hb a List.mem_cons_self

/-- the members to come still come in order after the next one was added -/
theorem ascending_next : ((s.insert a).toList ++ l).Pairwise fun a b => compare (key a) (key b) = .lt := by
  rwa [toList_insert_of_lt (lt_next h), ← List.append_cons]

end Next

/-- members that come in order after all others stay in order -/
theorem toList_insertAll (s : SortedBy key) {l : List α}
    (h : (s.toList ++ l).Pairwise fun a b => compare (key a) (key b) = .lt) : (s.insertAll l).toList = s.toList ++ l := by
  unfold insertAll
  induction l generalizing s with
  | nil => rw [List.foldl_nil, List.append_nil]
  | cons a l ih =>
    rw [List.foldl_cons, ih (s.insert a) (ascending_next h), toList_insert_of_lt (lt_next h), ← List.append_cons]

/-- an ascending list is the list of its collection -/
theorem toList_ofList {l : List α} (h : l.Pairwise fun a b => compare (key a) (key b) = .lt) :
    (ofList l : SortedBy key).toList = l := toList_insertAll empty h

/-- a collection is the one of its members -/
theorem ofList_toList (s : SortedBy key) : ofList s.toList = s := ext (toList_ofList s.ascending)

theorem mem_of_mem_insertAll {a : α} {s : SortedBy key} {l : List α} (h : a ∈ (s.insertAll l).toList) :
    a ∈ s.toList ∨ a ∈ l := by
  unfold insertAll at h
  induction l generalizing s with
  | nil => exact .inl h
  | cons b l ih =>
    rcases ih h with h | h
    · rw [toList_insert] at h
      rcases mem_place h with rfl | h
      · exact .inr List.mem_cons_self
      · exact .inl h
    · exact .inr (List.mem_cons_of_mem b h)

/-- a collection has no member that was not in its list -/
theorem mem_of_mem_ofList {a : α} {l : List α} (h : a ∈ (ofList l : SortedBy key).toList) : a ∈ l :=
  (mem_of_mem_insertAll h).resolve_left List.not_mem_nil

end SortedBy

/-- a set: its members are their own keys -/
abbrev SortedSet (α : Type) [Ord α] : Type := SortedBy (id : α → α)

/-- inserting into a set adds the member and keeps the others -/
theorem SortedBy.mem_insert [Ord α] [TransOrd α] [LawfulEqOrd α] {a c : α} {s : SortedSet α} :
    c ∈ s.insert a ↔ c = a ∨ c ∈ s := by
  show c ∈ (s.insert a).toList ↔ c = a ∨ c ∈ s.toList
  rw [toList_insert, mem_place_iff s.ascending]
  constructor
  · exact fun h => h.imp id And.left
  · rintro (h | h)
    · exact .inl h
    · by_cases hca : c = a
      · exact .inl hca
      · exact .inr ⟨h, fun he => hca (LawfulEqOrd.eq_of_compare he).symm⟩

/-- inserting a list into a set joins the two -/
theorem SortedBy.mem_insertAll [Ord α] [TransOrd α] [LawfulEqOrd α] {c : α} {s : SortedSet α} {l : List α} :
    c ∈ s.insertAll l ↔ c ∈ s ∨ c ∈ l := by
  unfold insertAll
  induction l generalizing s with
  | nil => simp
  | cons a l ih => rw [List.foldl_cons, ih, mem_insert, List.mem_cons, or_comm (a := c = a), or_assoc]

/-- a table: pairs sorted by their first components -/
abbrev SortedTable (κ α : Type) [Ord κ] : Type := SortedBy (Prod.fst : κ × α → κ)

/-- the value that a table holds for a key -/
def SortedBy.get? {κ α : Type} [Ord κ] (t : SortedTable κ α) (k : κ) : Option α :=
  (t.find? k).map Prod.snd

theorem SortedBy.get?_insert {κ α : Type} [Ord κ] [TransOrd κ] [LawfulEqOrd κ] [DecidableEq κ]
    (t : SortedTable κ α) (e : κ × α) (k : κ) :
    SortedBy.get? (t.insert e) k = if e.1 = k then some e.2 else t.get? k := by
  unfold get?
  rw [find?_insert]
  split <;> rfl

theorem SortedBy.get?_empty {κ α : Type} [Ord κ] (k : κ) : (empty : SortedTable κ α).get? k = none := rfl

end MixinPlanner
