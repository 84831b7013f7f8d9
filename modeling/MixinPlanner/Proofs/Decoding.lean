/-
Decoders and the documents that are written for them.

`Reads d j a` says that a decoder takes the document `j` for the value `a`, wherever the document comes from. `Yields d P`
says that whatever a decoder takes a document for has the property `P`. Each way to build a decoder has a lemma of either
kind, so that what is read by a whole description of a type follows its description.

A record finds its fields by their names (`valuesAt`), however many members stand around them. What is made of its fields
once they are found may be made of the record as well (`Record.map_seq`, `Record.decoder_map`).
-/
import Mathlib.Tactic
import MixinPlanner.Proofs.JsonReading
import MixinPlanner.Proofs.TypeText
import MixinPlanner.Wire.Encoder
import MixinPlanner.Wire.Record

namespace MixinPlanner

namespace Reading

/-! ## The reading of a value is sound -/

mutual

theorem sound_ofJson (j : Json) : (ofJson j).isSound = true ∧ (ofJson j).isWellFormed = true := by
  match j with
  | .null | .bool _ | .string _ => exact ⟨rfl, rfl⟩
  | .int _ => exact ⟨rfl, rfl⟩
  | .array items =>
    simpa only [ofJson, isSound, isWellFormed] using sound_ofItems items
  | .object members =>
    simpa only [ofJson, isSound, isWellFormed] using sound_ofMembers members

theorem sound_ofItems (js : List Json) :
    soundItems (ofItems js) = true ∧ wellFormedItems (ofItems js) = true := by
  match js with
  | [] => exact ⟨rfl, rfl⟩
  | j :: js =>
    obtain ⟨hs, hw⟩ := sound_ofJson j
    obtain ⟨hss, hws⟩ := sound_ofItems js
    simp only [ofItems, soundItems, wellFormedItems, hs, hw, hss, hws, Bool.and_self, and_self]

theorem sound_ofMembers (ms : List (String × Json)) :
    soundMembers (ofMembers ms) = true ∧ wellFormedMembers (ofMembers ms) = true := by
  match ms with
  | [] => exact ⟨rfl, rfl⟩
  | (k, j) :: ms =>
    obtain ⟨hs, hw⟩ := sound_ofJson j
    obtain ⟨hss, hws⟩ := sound_ofMembers ms
    simp only [ofMembers, soundMembers, wellFormedMembers, Option.isSome_some, hs, hw, hss, hws, Bool.and_self, and_self]

end

end Reading

namespace Wire

open Reading (ofJson ofItems ofMembers)

/-- the members of a written object as a reading has them -/
def entries (ms : MemberList) : List (String × Reading) := ms.map fun m => (m.1, ofJson m.2)

theorem split_ofMembers (ms : MemberList) : (ofMembers ms).split = (entries ms, true) := by
  induction ms with
  | nil => rfl
  | cons m ms ih => simp only [ofMembers, Members.split, ih, entries, List.map_cons]

theorem ofList_entries (ms : MemberList) : Members.ofList (entries ms) = ofMembers ms := by
  induction ms with
  | nil => rfl
  | cons m ms ih =>
    obtain ⟨k, j⟩ := m
    simp only [entries, List.map_cons, Members.ofList, ofMembers]
    rw [← ih]
    rfl

/-- the values that an object has under a name -/
def valuesAt (name : String) (ms : MemberList) : List Json := (ms.filter fun m => m.1 = name).map Prod.snd

@[simp]
theorem valuesAt_append (name : String) (ms ms' : MemberList) :
    valuesAt name (ms ++ ms') = valuesAt name ms ++ valuesAt name ms' := by
  simp [valuesAt]

@[simp]
theorem valuesAt_member (name n : String) (j : Json) : valuesAt name (member n j) = if n = name then [j] else [] := by
  by_cases h : n = name <;> simp [valuesAt, member, h]

@[simp]
theorem valuesAt_memberOfList (name n : String) (items : List Json) :
    valuesAt name (memberOfList n items) = if n = name ∧ items ≠ [] then [.array items] else [] := by
  cases items with
  | nil => simp [memberOfList, valuesAt]
  | cons j js => simp [show memberOfList n (j :: js) = member n (.array (j :: js)) from rfl, valuesAt_member]

@[simp]
theorem valuesAt_memberOfText (name n : String) (s : Option String) :
    valuesAt name (memberOfText n s) = if n = name then (s.map Json.string).toList else [] := by
  cases s with
  | none => simp [memberOfText, valuesAt]
  | some s => simp [show memberOfText n (some s) = member n (.string s) from rfl, valuesAt_member]

theorem valuesAt_eq_nil {name : String} {ms : MemberList} : valuesAt name ms = [] ↔ ∀ m ∈ ms, m.1 ≠ name := by
  simp [valuesAt, List.filter_eq_nil_iff]

/-! ## What a decoder reads -/

/-- a decoder takes a document for a value, wherever the document comes from -/
def Reads {α : Type} (d : Decoder α) (j : Json) (a : α) : Prop := ∀ src, d src (ofJson j) = .ok a

section Reads

variable {α β κ : Type}

theorem reads_string (s : String) : Reads string (.string s) s := fun _ => rfl

theorem reads_typeRef {t : TypeRef} (h : t.Valid) : Reads typeRef (typeJson t) t := by
  intro src
  have htext : string src (ofJson (typeJson t)) = .ok t.text := rfl
  simp only [typeRef, htext, TypeRef.parse_text t h, bind, Except.bind]

theorem reads_below {n bound : ℕ} (h : n < bound) : Reads (below bound) (.nat n) n := by
  intro src
  show (if n < bound then .ok n else .error _) = (.ok n : Except Fault ℕ)
  rw [if_pos h]

theorem reads_named {variants : List (String × α)} {name : String} {a : α} (h : variants.lookup name = some a) :
    Reads (named variants) (.string name) a := by
  intro src
  show variant variants name = .ok a
  rw [variant, h]

theorem reads_nothingMore (a : α) (ms : MemberList) : Reads (nothingMore a) (.object ms) a := fun _ => rfl

theorem reads_list {d : Decoder α} {write : α → Json} {l : List α} (h : ∀ a ∈ l, Reads d (write a) a) :
    Reads (list d) (.array (l.map write)) l := by
  intro src
  show itemsOf d src (ofItems (l.map write)) = .ok l
  induction l with
  | nil => rfl
  | cons a l ih =>
    obtain ⟨ha, hl⟩ := List.forall_mem_cons.1 h
    rw [List.map_cons, ofItems, itemsOf, ha src, ih hl]
    rfl

theorem reads_set [Ord α] [Std.TransOrd α] {d : Decoder α} {write : α → Json} {s : SortedSet α}
    (h : ∀ a ∈ s.toList, Reads d (write a) a) : Reads (set d) (.array (s.toList.map write)) s := by
  intro src
  rw [set, reads_list h src]
  exact congrArg Except.ok s.ofList_toList

theorem reads_table [Ord κ] [Std.TransOrd κ] {key : String → Except Fault κ} {d : Decoder α} {name : κ × α → String}
    {write : κ × α → Json} {t : SortedTable κ α} (hkey : ∀ e ∈ t.toList, key (name e) = .ok e.1)
    (h : ∀ e ∈ t.toList, Reads d (write e) e.2) :
    Reads (table key d) (.object (t.toList.map fun e => (name e, write e))) t := by
  intro src
  have hmembers : membersOf key d src (ofMembers (t.toList.map fun e => (name e, write e))) = .ok t.toList := by
    generalize t.toList = l at hkey h
    induction l with
    | nil => rfl
    | cons e l ih =>
      obtain ⟨hek, hlk⟩ := List.forall_mem_cons.1 hkey
      obtain ⟨he, hl⟩ := List.forall_mem_cons.1 h
      rw [List.map_cons, ofMembers, membersOf, hek, he src, ih hlk hl]
      rfl
  show (membersOf key d src (ofMembers _)).map SortedBy.ofList = .ok t
  rw [hmembers]
  exact congrArg Except.ok t.ofList_toList

theorem reads_map {d : Decoder α} {j : Json} {a : α} (f : α → β) (h : Reads d j a) :
    Reads (fun src r => (d src r).map f) j (f a) := by
  intro src
  show (d src (ofJson j)).map f = .ok (f a)
  rw [h src]
  rfl

/-! ### Values of several kinds -/

theorem splitTag_of_found {tag : String} {read : Reading → Except Fault α} {a : α} {ms : MemberList}
    (h : ∀ m ∈ ms, m.1 ≠ tag) : splitTag tag read (some a) (ofMembers ms) = .ok (some a, entries ms) := by
  induction ms with
  | nil => rfl
  | cons m ms ih =>
    obtain ⟨k, j⟩ := m
    obtain ⟨hk, hms⟩ := List.forall_mem_cons.1 h
    rw [ofMembers, splitTag, if_neg hk, (Reading.sound_ofJson j).1, ih hms]
    rfl

/-- a value of one of several kinds is read when its kind is told first, and not again -/
theorem reads_tagged {tag name : String} {variants : List (String × Decoder α)} {d : Decoder α} {ms : MemberList}
    {a : α} (hd : variants.lookup name = some d) (htag : valuesAt tag ms = []) (h : Reads d (.object ms) a) :
    Reads (tagged tag variants) (.object (member tag (.string name) ++ ms)) a := by
  intro src
  have hname : tagName variants src (.string (some name)) = .ok d := by
    have hvariant : variant variants name = .ok d := by rw [variant, hd]
    cases src <;> exact hvariant
  have hsplit : splitTag tag (tagName variants src) none (ofMembers ((tag, .string name) :: ms)) =
      .ok (some d, entries ms) := by
    rw [ofMembers, splitTag, if_pos rfl, ofJson, hname]
    exact splitTag_of_found (valuesAt_eq_nil.1 htag)
  have hobject : ofJson (.object (member tag (.string name) ++ ms)) =
      .object (ofMembers ((tag, .string name) :: ms)) := rfl
  simp only [tagged, hobject, hsplit, bind, Except.bind, ofList_entries]
  exact h .held

end Reads

namespace Record

/-! ### Records -/

/-- a record takes the members of an object for a value, wherever the object comes from -/
def Reads {α : Type} (r : Record α) (ms : MemberList) (a : α) : Prop :=
  ∀ src, r.read ⟨src, true, entries ms⟩ = .ok a

variable {α β : Type} {ms : MemberList}

theorem Reads.map {r : Record α} {a : α} (f : α → β) (h : r.Reads ms a) : (f <$> r).Reads ms (f a) := by
  intro src
  show (r.read _).map f = .ok (f a)
  rw [h src]
  rfl

theorem Reads.seq {f : Record (α → β)} {r : Record α} {g : α → β} {a : α} (hf : f.Reads ms g) (h : r.Reads ms a) :
    (f <*> r).Reads ms (g a) := by
  intro src
  show both (· ·) (f.read _) (r.read _) = .ok (g a)
  rw [hf src, h src]
  rfl

theorem given_zipIdx (name : String) (es : List (String × Reading)) (i : ℕ) :
    ((es.zipIdx i).filterMap fun e => if e.1.1 = name then some (e.2, e.1.2) else none).map Prod.snd =
      (es.filter fun e => e.1 = name).map Prod.snd := by
  induction es generalizing i with
  | nil => rfl
  | cons e es ih => by_cases h : e.1 = name <;> simp [List.zipIdx_cons, h, ih]

/-- what is given for a name are the values under it -/
theorem given_entries (name : String) (ms : MemberList) :
    (given name (entries ms)).map Prod.snd = (valuesAt name ms).map ofJson := by
  rw [given, given_zipIdx, valuesAt, entries, List.filter_map, List.map_map, List.map_map]
  rfl

/-- a field is read from the one value under its name -/
theorem reads_fieldOr {name : String} {absent : Option α} {d : Decoder α} {j : Json} {a : α}
    (hv : valuesAt name ms = [j]) (h : Wire.Reads d j a) : (fieldOr name absent d).Reads ms a := by
  intro src
  have hgiven := given_entries name ms
  rw [hv, List.map_singleton, List.map_eq_singleton_iff] at hgiven
  obtain ⟨⟨i, r⟩, hgiven, hr⟩ := hgiven
  obtain rfl : r = ofJson j := hr
  simp only [fieldOr, hgiven, h src]

/-- a field that has no value has what stands for it then -/
theorem reads_absent {name : String} {d : Decoder α} (a : α) (hv : valuesAt name ms = []) :
    (fieldOr name (some a) d).Reads ms a := by
  intro src
  have hgiven := given_entries name ms
  rw [hv, List.map_nil, List.map_eq_nil_iff] at hgiven
  simp only [fieldOr, hgiven]

/-- a list that is left out when it is empty -/
theorem reads_listOr {name : String} {d : Decoder α} {write : α → Json} {l : List α}
    (hv : valuesAt name ms = valuesAt name (memberOfList name (l.map write)))
    (h : ∀ a ∈ l, Wire.Reads d (write a) a) : (fieldOr name (some []) (list d)).Reads ms l := by
  rw [valuesAt_memberOfList] at hv
  cases l with
  | nil => exact reads_absent [] (by simpa using hv)
  | cons a l => exact reads_fieldOr (by simpa using hv) (reads_list h)

/-- a set that is left out when it is empty -/
theorem reads_setOr [Ord α] [Std.TransOrd α] {name : String} {d : Decoder α} {write : α → Json} {s : SortedSet α}
    (hv : valuesAt name ms = valuesAt name (memberOfList name (s.toList.map write)))
    (h : ∀ a ∈ s.toList, Wire.Reads d (write a) a) : (fieldOr name (some .empty) (set d)).Reads ms s := by
  rw [valuesAt_memberOfList] at hv
  by_cases hs : s.toList = []
  · rw [show s = SortedBy.empty from SortedBy.ext hs]
    exact reads_absent SortedBy.empty (by simpa [hs] using hv)
  · exact reads_fieldOr (by simpa [hs] using hv) (reads_set h)

/-- a text that is left out when there is none -/
theorem reads_textOr {name : String} {s : Option String}
    (hv : valuesAt name ms = valuesAt name (memberOfText name s)) :
    (fieldOr name (some none) (optional string)).Reads ms s := by
  rw [valuesAt_memberOfText] at hv
  cases s with
  | none => exact reads_absent none (by simpa using hv)
  | some s => exact reads_fieldOr (by simpa using hv) fun _ => rfl

theorem foldl_both_ok {ε : Type} {step : ε → Except Placed Unit} {es : List ε} (h : ∀ e ∈ es, step e = .ok ()) :
    es.foldl (fun soFar e => both (fun _ _ => ()) soFar (step e)) (.ok ()) = .ok () := by
  induction es with
  | nil => rfl
  | cons e es ih =>
    obtain ⟨he, hes⟩ := List.forall_mem_cons.1 h
    rw [List.foldl_cons, he]
    exact ih hes

/-- members that are no fields are passed over -/
theorem others_entries (names : List String) {policy : Others} (hp : policy ≠ .refused) (ms : MemberList) :
    others names policy (entries ms) = .ok () := by
  refine foldl_both_ok fun e he => ?_
  obtain ⟨m, -, hm⟩ := List.mem_map.1 (List.fst_mem_of_mem_zipIdx he)
  obtain ⟨hs, hw⟩ := Reading.sound_ofJson m.2
  by_cases hname : e.1.1 ∈ names
  · exact if_pos hname
  · rw [if_neg hname, ← hm]
    cases policy with
    | ignored => exact if_pos hw
    | refused => exact absurd rfl hp
    | held => exact if_pos hs

theorem Reads.ofMembers {r : Record α} {a : α} (h : r.Reads ms a) {policy : Others} (hp : policy ≠ .refused)
    (src : Source) : r.ofMembers policy src (Reading.ofMembers ms) = .ok a := by
  simp only [Record.ofMembers, split_ofMembers, h src, others_entries r.names hp, ending, if_true]
  rfl

/-- a record is read from an object with its fields -/
theorem Reads.decoder {r : Record α} {a : α} (h : r.Reads ms a) : Wire.Reads (r.decoder .ignored) (.object ms) a :=
  fun src => Reads.ofMembers h (by simp) src

/-- a field is read from an object that it shares with another record -/
theorem reads_alongside {name : String} {d : Decoder α} {d' : α → Decoder β} {j : Json} {a : α} {b : β}
    (hv : valuesAt name ms = []) (h : Wire.Reads d j a) (hd : Wire.Reads (d' a) (.object ms) b) :
    Wire.Reads ((field name d).alongside d') (.object (member name j ++ ms)) b := by
  intro src
  have hread : (field name d).Reads (member name j ++ ms) a := reads_fieldOr (by simp [hv]) h
  have hrest : (entries (member name j ++ ms)).filter (fun e => e.1 ∉ [name]) = entries ms := by
    have hkeep : (entries ms).filter (fun e => e.1 ∉ [name]) = entries ms :=
      List.filter_eq_self.2 (List.forall_mem_map.2 fun m hm => by simpa using valuesAt_eq_nil.1 hv m hm)
    have hdrop : (entries (member name j)).filter (fun e => e.1 ∉ [name]) = [] := by simp [entries, member]
    rw [entries, List.map_append, List.filter_append, ← entries, ← entries, hkeep, hdrop, List.nil_append]
  show ((field name d).ofMembers .held src (Reading.ofMembers _) >>= fun a =>
    d' a .held (.object (.ofList ((Reading.ofMembers _).split.1.filter fun e => e.1 ∉ [name])))) = .ok b
  rw [Reads.ofMembers hread (by simp), split_ofMembers, hrest, ofList_entries]
  exact hd .held

end Record

/-! ## What a decoder yields -/

/-- whatever a decoder takes a document for has a property -/
def Yields {α : Type} (d : Decoder α) (P : α → Prop) : Prop := ∀ src r a, d src r = .ok a → P a

section Yields

variable {α β κ : Type}

theorem yields_any (d : Decoder α) : Yields d fun _ => True := fun _ _ _ _ => trivial

theorem Yields.mono {d : Decoder α} {P Q : α → Prop} (h : Yields d P) (hPQ : ∀ a, P a → Q a) : Yields d Q :=
  fun src r a hd => hPQ a (h src r a hd)

theorem yields_typeRef : Yields typeRef TypeRef.Valid := by
  intro src r t h
  obtain ⟨s, -, h⟩ := TypeRef.bind_eq_ok h
  split at h
  next u hparse =>
    cases h
    exact TypeRef.valid_of_parse hparse
  next => cases h

theorem yields_below (bound : ℕ) : Yields (below bound) fun n => n < bound := by
  intro src r n h
  unfold below at h
  split at h
  next numeral =>
    split at h
    next m _ =>
      split_ifs at h with hm
      cases h
      exact hm
    next => cases h
  next => cases h

theorem yields_nothingMore {P : α → Prop} {a : α} (ha : P a) : Yields (nothingMore a) P := by
  intro src r b hb
  unfold nothingMore at hb
  split at hb <;> cases hb <;> exact ha

theorem Yields.list {d : Decoder α} {P : α → Prop} (h : Yields d P) : Yields (list d) fun l => ∀ a ∈ l, P a := by
  have hitems : ∀ src items l, itemsOf d src items = .ok l → ∀ a ∈ l, P a := by
    intro src items
    induction items using itemsOf.induct with
    | case1 => rintro l ⟨⟩; exact List.forall_mem_nil _
    | case2 => intro l hl; cases hl
    | case3 r rest ih =>
      intro l hl
      rw [itemsOf] at hl
      obtain ⟨a, ha, hl⟩ := TypeRef.bind_eq_ok hl
      obtain ⟨more, hmore, hl⟩ := TypeRef.bind_eq_ok hl
      cases hl
      exact List.forall_mem_cons.2 ⟨h src r a ha, ih more hmore⟩
  intro src r l hl
  unfold Wire.list at hl
  split at hl
  next items => exact hitems src items l hl
  next => cases hl
  next => cases hl

theorem map_eq_ok {ε : Type} {x : Except ε α} {f : α → β} {b : β} (h : x.map f = .ok b) :
    ∃ a, x = .ok a ∧ f a = b := by
  cases x with
  | error e => cases h
  | ok a => exact ⟨a, rfl, Except.ok.inj h⟩

theorem Yields.map {d : Decoder α} {P : α → Prop} {R : β → Prop} {f : α → β} (h : Yields d P)
    (hR : ∀ a, P a → R (f a)) : Yields (fun src r => (d src r).map f) R := by
  intro src r b hb
  obtain ⟨a, ha, rfl⟩ := map_eq_ok hb
  exact hR a (h src r a ha)

theorem Yields.set [Ord α] [Std.TransOrd α] {d : Decoder α} {P : α → Prop} (h : Yields d P) :
    Yields (set d) fun s => ∀ a ∈ s.toList, P a := by
  intro src r s hs
  obtain ⟨l, hl, rfl⟩ := map_eq_ok hs
  exact fun a ha => h.list src r l hl a (SortedBy.mem_of_mem_ofList ha)

theorem Yields.table [Ord κ] [Std.TransOrd κ] {key : String → Except Fault κ} {d : Decoder α} {P : α → Prop}
    {Q : κ → Prop} (hkey : ∀ s k, key s = .ok k → Q k) (h : Yields d P) :
    Yields (table key d) fun t => ∀ e ∈ t.toList, Q e.1 ∧ P e.2 := by
  have hmembers : ∀ src ms l, membersOf key d src ms = .ok l → ∀ e ∈ l, Q e.1 ∧ P e.2 := by
    intro src ms
    induction ms using membersOf.induct with
    | case1 => rintro l ⟨⟩; exact List.forall_mem_nil _
    | case2 => intro l hl; cases hl
    | case3 => intro l hl; cases hl
    | case4 k r rest ih =>
      intro l hl
      rw [membersOf] at hl
      obtain ⟨k', hk', hl⟩ := TypeRef.bind_eq_ok hl
      obtain ⟨a, ha, hl⟩ := TypeRef.bind_eq_ok hl
      obtain ⟨more, hmore, hl⟩ := TypeRef.bind_eq_ok hl
      cases hl
      exact List.forall_mem_cons.2 ⟨⟨hkey k k' hk', h src r a ha⟩, ih more hmore⟩
  intro src r t ht
  unfold Wire.table at ht
  split at ht
  next ms =>
    obtain ⟨l, hl, rfl⟩ := map_eq_ok ht
    exact fun e he => hmembers src ms l hl e (SortedBy.mem_of_mem_ofList he)
  next => cases ht
  next => cases ht

theorem yields_typeKey {s : String} {t : TypeRef} (h : typeKey s = .ok t) : t.Valid := by
  unfold typeKey at h
  split at h
  next u hparse =>
    cases h
    exact TypeRef.valid_of_parse hparse
  next => cases h

/-- a tag names one of the variants -/
theorem mem_of_variant {variants : List (String × α)} {name : String} {a : α} (h : variant variants name = .ok a) :
    ∃ v ∈ variants, v.2 = a := by
  unfold variant at h
  split at h
  next b hb =>
    cases h
    obtain ⟨l₁, l₂, hsplit, -⟩ := List.lookup_eq_some_iff.1 hb
    exact ⟨(name, a), by rw [hsplit]; simp, rfl⟩
  next => cases h

theorem mem_of_tagName {variants : List (String × α)} {src : Source} {r : Reading} {a : α}
    (h : tagName variants src r = .ok a) : ∃ v ∈ variants, v.2 = a := by
  unfold tagName at h
  split at h
  next n =>
    split at h
    next i _ =>
      cases hi : variants[i]? with
      | none => rw [hi] at h; cases h
      | some v =>
        rw [hi] at h
        exact ⟨v, List.mem_of_getElem? hi, Except.ok.inj h⟩
    next => cases h
  next =>
    obtain ⟨name, -, h⟩ := TypeRef.bind_eq_ok h
    exact mem_of_variant h

theorem found_of_splitTag {tag : String} {read : Reading → Except Fault α} {found : Option α} {ms : Members} {a : α}
    {rest : List (String × Reading)} (h : splitTag tag read found ms = .ok (some a, rest)) :
    found = some a ∨ ∃ r, read r = .ok a := by
  induction found, ms using splitTag.induct tag read generalizing rest with
  | case1 found =>
    rw [splitTag] at h
    cases h
    exact .inl rfl
  | case2 => cases h
  | case3 => cases h
  | case4 found r ms hfound ih =>
    simp [splitTag, hfound, throw, throwThe, MonadExceptOf.throw, bind, Except.bind] at h
  | case5 found r ms hfound ih =>
    simp only [splitTag, if_true, hfound] at h
    obtain ⟨b, hb, h⟩ := TypeRef.bind_eq_ok h
    refine .inr ?_
    rcases ih b h with hbound | hread
    · cases hbound
      exact ⟨r, hb⟩
    · exact hread
  | case6 found k r ms hk hr ih =>
    simp only [splitTag, if_neg hk, hr, if_true] at h
    obtain ⟨⟨found', more⟩, hsplit, h⟩ := TypeRef.bind_eq_ok h
    cases h
    exact ih hsplit
  | case7 found k r ms hk hr ih =>
    simp [splitTag, if_neg hk, hr, throw, throwThe, MonadExceptOf.throw, bind, Except.bind] at h

/-- what is read of several kinds is read of one of them -/
theorem yields_tagged {tag : String} {variants : List (String × Decoder α)} {P : α → Prop}
    (h : ∀ v ∈ variants, Yields v.2 P) : Yields (tagged tag variants) P := by
  have hvariant : ∀ {src r d} (src' : Source) (r' : Reading) (a : α), tagName variants src r = .ok d →
      d src' r' = .ok a → P a := by
    intro src r d src' r' a hd ha
    obtain ⟨v, hv, rfl⟩ := mem_of_tagName hd
    exact h v hv src' r' a ha
  intro src r a ha
  unfold tagged at ha
  split at ha
  next ms =>
    obtain ⟨⟨found, rest⟩, hsplit, ha⟩ := TypeRef.bind_eq_ok ha
    cases found with
    | none => cases ha
    | some d =>
      obtain ⟨⟨⟩⟩ | ⟨r, hd⟩ := found_of_splitTag hsplit
      exact hvariant _ _ a hd ha
  next => cases ha
  next => cases ha
  next rest =>
    obtain ⟨d, hd, ha⟩ := TypeRef.bind_eq_ok ha
    by_cases hrest : Reading.soundItems rest = true
    · simp only [hrest, if_true] at ha
      exact hvariant _ _ a hd ha
    · simp [hrest, throw, throwThe, MonadExceptOf.throw, bind, Except.bind] at ha
  next => cases ha
  next => cases ha

end Yields

namespace Record

/-- whatever a record takes what was found for has a property -/
def Yields {α : Type} (r : Record α) (P : α → Prop) : Prop := ∀ found a, r.read found = .ok a → P a

variable {α β : Type} {P : α → Prop} {R : β → Prop}

theorem both_eq_ok {γ : Type} {f : α → β → γ} {x : Except Placed α} {y : Except Placed β} {c : γ}
    (h : both f x y = .ok c) : ∃ a b, x = .ok a ∧ y = .ok b ∧ f a b = c := by
  cases x <;> cases y <;> cases h
  exact ⟨_, _, rfl, rfl, rfl⟩

theorem mapError_eq_ok {ε ε' : Type} {x : Except ε α} {f : ε → ε'} {a : α} (h : x.mapError f = .ok a) : x = .ok a := by
  cases x with
  | error e => cases h
  | ok b => cases h; rfl

theorem Yields.map {r : Record α} {f : α → β} (h : r.Yields P) (hR : ∀ a, P a → R (f a)) : (f <$> r).Yields R := by
  intro found b hb
  obtain ⟨a, ha, rfl⟩ := map_eq_ok hb
  exact hR a (h found a ha)

/-- a further field: what the record is then has the property for every value that the field can have -/
theorem Yields.seq {f : Record (α → β)} {r : Record α} (hf : f.Yields fun g => ∀ a, P a → R (g a)) (h : r.Yields P) :
    (f <*> r).Yields R := by
  intro found b hb
  obtain ⟨g, a, hg, ha, rfl⟩ := both_eq_ok hb
  exact hf found g hg a (h found a ha)

theorem yields_fieldOr {name : String} {absent : Option α} {d : Decoder α} (habsent : ∀ a ∈ absent, P a)
    (h : Wire.Yields d P) : (fieldOr name absent d).Yields P := by
  intro found a ha
  simp only [fieldOr] at ha
  split at ha
  next =>
    split at ha
    next b =>
      cases ha
      exact habsent _ rfl
    next => cases ha
  next =>
    split at ha
    next => cases ha
    next b hd =>
      split at ha
      next => cases ha; exact h _ _ _ hd
      next => cases ha

theorem yields_field {name : String} {d : Decoder α} (h : Wire.Yields d P) : (field name d).Yields P :=
  yields_fieldOr (fun _ ha => nomatch ha) h

theorem Yields.ofMembers {r : Record α} (h : r.Yields P) {policy : Others} {src : Source} {ms : Members} {a : α}
    (ha : r.ofMembers policy src ms = .ok a) : P a := by
  obtain ⟨a, -, hread, -, rfl⟩ := both_eq_ok (mapError_eq_ok ha)
  exact h _ a hread

theorem Yields.decoder {r : Record α} (h : r.Yields P) (policy : Others) : Wire.Yields (r.decoder policy) P := by
  intro src doc a ha
  unfold Record.decoder at ha
  split at ha
  next => exact h.ofMembers ha
  next =>
    obtain ⟨a, -, hread, -, rfl⟩ := both_eq_ok (mapError_eq_ok ha)
    exact h _ a hread
  next => cases ha
  next => cases ha

theorem Yields.alongside {r : Record α} {d : α → Decoder β} (h : r.Yields P) (hd : ∀ a, P a → Wire.Yields (d a) R) :
    Wire.Yields (r.alongside d) R := by
  intro src doc b hb
  unfold Record.alongside at hb
  split at hb
  next =>
    obtain ⟨a, ha, hb⟩ := TypeRef.bind_eq_ok hb
    exact hd a (h.ofMembers ha) _ _ b hb
  next => cases hb
  next => cases hb

/-! ### What is made of a record -/

section Map

variable {γ : Type}

theorem map_map (g : β → γ) (f : α → β) (r : Record α) : g <$> f <$> r = (g ∘ f) <$> r := by
  refine congrArg (Record.mk r.names) (funext fun found => ?_)
  show ((r.read found).map f).map g = (r.read found).map (g ∘ f)
  cases r.read found <;> rfl

theorem map_seq (g : β → γ) (f : Record (α → β)) (r : Record α) :
    g <$> (f <*> r) = ((fun h a => g (h a)) <$> f) <*> r := by
  refine congrArg (Record.mk (f.names ++ r.names)) (funext fun found => ?_)
  show (both (· ·) (f.read found) (r.read found)).map g =
    both (· ·) ((f.read found).map fun h a => g (h a)) (r.read found)
  cases f.read found <;> cases r.read found <;> rfl

/-- what is made of a record is found where the record is, and the faults are the same -/
theorem decoder_map (f : α → β) (r : Record α) (policy : Others) (src : Source) (doc : Reading) :
    (f <$> r).decoder policy src doc = (r.decoder policy src doc).map f := by
  have hclosed (x : Except Placed α) (rest : Except Placed Unit) :
      (both (fun b _ => b) (x.map f) rest).mapError Placed.fault =
        ((both (fun a _ => a) x rest).mapError Placed.fault).map f := by
    cases x <;> cases rest <;> rfl
  cases doc with
  | object members => exact hclosed _ _
  | array items => exact hclosed _ _
  | _ => rfl

end Map

end Record

/-! ## Whole texts -/

section Text

variable {α : Type}

/-- what a text writes is decoded first, and then the text has to end -/
theorem decode_eq (d : Decoder α) (text : String) : decode d text =
    (d .text (Reading.ofText text).1).bind fun a => if (Reading.ofText text).2 then .ok a else .error .malformed := rfl

theorem decode_eq_ok {d : Decoder α} {text : String} {a : α} :
    decode d text = .ok a ↔ d .text (Reading.ofText text).1 = .ok a ∧ (Reading.ofText text).2 = true := by
  rw [decode_eq]
  cases d .text (Reading.ofText text).1 with
  | error fault => simp [Except.bind]
  | ok b =>
    show (if _ then _ else _) = _ ↔ _
    split_ifs with hend <;> simp [hend]

end Text

end Wire

end MixinPlanner
