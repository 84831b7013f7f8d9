/-
Streams of records: what is written one record on a line is read back, record by record.

The compact form of a value has no line feed in it, so lines end where records do; an object begins and ends with a brace,
so nothing is cut from its line and the line is not passed over.
- `cut_lines`, `cut_writeRecords`: bytes are cut into the lines that they were put together from;
- `readRecords_write`: the records of a written stream, numbered from 1.

A configuration is read back from its fact stream if every target has a fact, as the stream says nothing else about a
target. `Streamable` is what that takes; taking a record keeps it, so whatever was read from a stream can be written again.
- `takeRecord_streamable`, `streamable_of_read`: the step and the run;
- `taken_records`: the records of a configuration taken in turn make that configuration.
-/
import Mathlib.Tactic
import MixinPlanner.Proofs.FactRecords
import MixinPlanner.Proofs.LineReading
import MixinPlanner.Proofs.RoundTrip

namespace MixinPlanner

namespace Json

/-! ## Characters of a written value -/

/-- no control character among some characters -/
def Printable (cs : List Char) : Prop := ∀ c ∈ cs, 0x20 ≤ c.toNat

@[simp]
theorem printable_append {cs cs' : List Char} : Printable (cs ++ cs') ↔ Printable cs ∧ Printable cs' :=
  List.forall_mem_append

@[simp]
theorem printable_cons {c : Char} {cs : List Char} : Printable (c :: cs) ↔ 0x20 ≤ c.toNat ∧ Printable cs :=
  List.forall_mem_cons

@[simp]
theorem printable_nil : Printable [] := List.forall_mem_nil _

theorem hexDigit_printable (n : ℕ) : 0x20 ≤ (hexDigit n).toNat := by
  have hdigits : ∀ m < 16, 0x20 ≤ (Nat.digitChar m).toNat := by decide
  exact hdigits _ (Nat.mod_lt _ (by decide))

theorem escapeChar_printable (c : Char) : Printable (escapeChar c) := by
  unfold escapeChar
  split_ifs
  · simp
  · simp
  · simp
  · simp
  · simp
  · simp
  · simp
  · simp [hexDigit_printable]
  · simpa using ‹¬ c.toNat < 0x20›

theorem stringChars_printable (s : String) : Printable (stringChars s) := by
  have hescaped : Printable (s.toList.flatMap escapeChar) :=
    List.forall_mem_flatMap.2 fun c _ => escapeChar_printable c
  simp [stringChars, hescaped]

theorem toString_printable (i : ℤ) : Printable (toString i).toList := by
  intro c hc
  have hnumeral := isNumeral_of_mem_toString hc
  simp only [isNumeral, Char.isDigit, Bool.or_eq_true, beq_iff_eq, Bool.and_eq_true, decide_eq_true_eq] at hnumeral
  rcases hnumeral with rfl | ⟨hlow, -⟩
  · decide
  · have hzero : 48 ≤ c.toNat := hlow
    omega

mutual

/-- no control character is in the compact form of a value -/
theorem chars_printable (j : Json) : Printable j.chars := by
  match j with
  | null => simp [chars, Printable]
  | bool true => simp [chars, Printable]
  | bool false => simp [chars, Printable]
  | int i => exact toString_printable i
  | string s => exact stringChars_printable s
  | array [] => simp [chars]
  | array (j :: js) => simp [chars, chars_printable j, itemsChars_printable js]
  | object [] => simp [chars]
  | object ((k, j) :: ms) => simp [chars, stringChars_printable k, chars_printable j, membersChars_printable ms]

theorem itemsChars_printable (js : List Json) : Printable (itemsChars js) := by
  match js with
  | [] => simp [itemsChars]
  | j :: js => simp [itemsChars, chars_printable j, itemsChars_printable js]

theorem membersChars_printable (ms : List (String × Json)) : Printable (membersChars ms) := by
  match ms with
  | [] => simp [membersChars]
  | (k, j) :: ms => simp [membersChars, stringChars_printable k, chars_printable j, membersChars_printable ms]

end

theorem exists_membersChars (ms : List (String × Json)) : ∃ cs, membersChars ms = cs ++ ['\x7d'] := by
  induction ms with
  | nil => exact ⟨[], rfl⟩
  | cons m ms ih =>
    obtain ⟨cs, hcs⟩ := ih
    exact ⟨',' :: (stringChars m.1 ++ ':' :: (m.2.chars ++ cs)), by simp [membersChars, hcs]⟩

/-- an object stands between its braces -/
theorem exists_objectChars (ms : List (String × Json)) : ∃ cs, (object ms).chars = '\x7b' :: (cs ++ ['\x7d']) := by
  rcases ms with _ | ⟨⟨k, j⟩, ms⟩
  · exact ⟨[], rfl⟩
  · obtain ⟨cs, hcs⟩ := exists_membersChars ms
    exact ⟨stringChars k ++ ':' :: (j.chars ++ cs), by simp [chars, hcs]⟩

end Json

namespace Stream

open Wire

/-! ## Bytes and lines -/

theorem utf8_ofList (cs : List Char) : utf8 (String.ofList cs) = cs.flatMap String.utf8EncodeChar := by
  unfold utf8
  rw [String.toUTF8_eq_toByteArray, String.toByteArray_ofList, List.utf8Encode]
  exact List.toList_data_toByteArray

/-- the bytes of a text are read as that text -/
theorem textOf_utf8 (s : String) : textOf (utf8 s) = some s := by
  have hbytes : (⟨(utf8 s).toArray⟩ : ByteArray) = s.toByteArray := rfl
  rw [textOf, hbytes, String.fromUTF8?, dif_pos s.isValidUTF8]
  rfl

/-- only the character of an ASCII byte has that byte: the bytes of characters beyond ASCII are large -/
theorem eq_of_byte_mem {a c : Char} (ha : a.toNat < 128) (h : UInt8.ofNat a.toNat ∈ String.utf8EncodeChar c) : c = a := by
  have hbyte : ∀ n, UInt8.ofNat a.toNat = UInt8.ofNat n → n % 256 = a.toNat := by
    intro n hn
    have htoNat := congrArg UInt8.toNat hn
    simp only [UInt8.toNat_ofNat'] at htoNat
    omega
  have hlarge : ∀ n, 128 ≤ n % 256 → (UInt8.ofNat a.toNat = UInt8.ofNat n ↔ False) := fun n hn =>
    ⟨fun h => by have := hbyte n h; omega, False.elim⟩
  refine Char.toNat_inj.1 (show c.val.toNat = a.toNat from ?_)
  simp only [String.utf8EncodeChar] at h
  split_ifs at h
  · have := hbyte _ (List.mem_singleton.1 h)
    omega
  all_goals
    simp (disch := omega) only [List.mem_cons, List.not_mem_nil, hlarge, or_false] at h

/-- an ASCII character that is not in a text has its byte not in the text's bytes -/
theorem byte_not_mem {a : Char} (ha : a.toNat < 128) {cs : List Char} (h : a ∉ cs) :
    UInt8.ofNat a.toNat ∉ utf8 (String.ofList cs) := by
  rw [utf8_ofList, List.mem_flatMap]
  rintro ⟨c, hc, hbyte⟩
  exact h (eq_of_byte_mem ha hbyte ▸ hc)

theorem lineFeed_not_mem {cs : List Char} (h : Json.Printable cs) : 10 ∉ utf8 (String.ofList cs) :=
  byte_not_mem (a := '\n') (by decide) fun hmem => absurd (h _ hmem) (by decide)

theorem cut_line {line : List UInt8} (h : 10 ∉ line) (rest : List UInt8) :
    cut (line ++ 10 :: rest) = line :: cut rest := by
  induction line with
  | nil => rfl
  | cons b line ih =>
    obtain ⟨hb, hline⟩ := List.ne_and_not_mem_of_not_mem_cons h
    rw [List.cons_append, cut, if_neg hb.symm, ih hline]

/-- bytes are cut into the lines that they were put together from -/
theorem cut_lines {lines : List (List UInt8)} (h : ∀ line ∈ lines, 10 ∉ line) (rest : List UInt8) :
    cut ((lines.flatMap fun line => line ++ [10]) ++ rest) = lines ++ cut rest := by
  induction lines with
  | nil => rfl
  | cons line lines ih =>
    obtain ⟨hline, hlines⟩ := List.forall_mem_cons.1 h
    rw [List.flatMap_cons, List.append_assoc, List.append_assoc, List.singleton_append, cut_line hline, ih hlines,
      List.cons_append]

theorem utf8_writeRecords (js : List Json) :
    utf8 (writeRecords js) = (js.map fun j => utf8 j.compact).flatMap fun line => line ++ [10] := by
  have hfeed : String.utf8EncodeChar '\n' = [10] := by decide
  rw [writeRecords, utf8_ofList, List.flatMap_assoc, List.flatMap_map]
  congr
  funext j
  rw [List.flatMap_append, ← utf8_ofList, List.flatMap_singleton, hfeed]
  rfl

/-- records that were written are cut into the lines that hold them, whatever follows -/
theorem cut_writeRecords (js : List Json) (rest : List UInt8) :
    cut (utf8 (writeRecords js) ++ rest) = (js.map fun j => utf8 j.compact) ++ cut rest := by
  have hlines : ∀ line ∈ js.map fun j => utf8 j.compact, 10 ∉ line :=
    List.forall_mem_map.2 fun j _ => lineFeed_not_mem j.chars_printable
  rw [utf8_writeRecords, cut_lines hlines]

/-! ## Records -/

/-- nothing is cut from a text that neither begins nor ends with a blank -/
theorem trimBlanks_eq {a b : Char} (ha : Text.isBlank a = false) (hb : Text.isBlank b = false) (cs : List Char) :
    Text.trimBlanks (a :: (cs ++ [b])) = a :: (cs ++ [b]) := by
  have hreverse : (a :: (cs ++ [b])).reverse = b :: (cs.reverse ++ [a]) := by simp
  rw [Text.trimBlanks, TypeRef.skipBlanks_cons ha, hreverse, TypeRef.skipBlanks_cons hb]
  simp

section Records

variable {α : Type} {d : Decoder α} {write : α → Json}

/-- the record on a line that an object was written to -/
theorem readLine_object {a : α} {ms : MemberList} (h : decode d (Json.object ms).compact = .ok a) (n : ℕ) :
    readLine d n (utf8 (Json.object ms).compact) = .ok (some (n, a)) := by
  obtain ⟨cs, hcs⟩ := Json.exists_objectChars ms
  have htrim : Text.trimBlanks (Json.object ms).compact.toList = (Json.object ms).chars := by
    rw [Json.compact, String.toList_ofList, hcs, trimBlanks_eq (by decide) (by decide)]
  have hskip : isSkipped (Json.object ms).chars = false := by simp [hcs, isSkipped]
  have htext : String.ofList (Json.object ms).chars = (Json.object ms).compact := rfl
  simp only [readLine, textOf_utf8, htrim, hskip, htext, h, Bool.false_eq_true, if_false]

theorem record?_object {a : α} {ms : MemberList} (h : decode d (Json.object ms).compact = .ok a) :
    record? d (utf8 (Json.object ms).compact) = some a := record?_of_readLine (readLine_object h 1)

theorem readFrom_write {l : List α} (hobject : ∀ a ∈ l, ∃ ms, write a = .object ms)
    (hread : ∀ a ∈ l, decode d (write a).compact = .ok a) (n : ℕ) :
    readFrom d n (l.map fun a => utf8 (write a).compact) = .ok ((l.zipIdx n).map Prod.swap) := by
  induction l generalizing n with
  | nil => rfl
  | cons a l ih =>
    obtain ⟨⟨ms, ha⟩, hobjects⟩ := List.forall_mem_cons.1 hobject
    obtain ⟨hfirst, hreads⟩ := List.forall_mem_cons.1 hread
    have hline : readLine d n (utf8 (write a).compact) = .ok (some (n, a)) := by
      rw [ha] at hfirst ⊢
      exact readLine_object hfirst n
    rw [List.map_cons, readFrom, hline, ih hobjects hreads (n + 1)]
    rfl

/-- **The records of a written stream are read back**, each with the number of its line. -/
theorem readRecords_write {l : List α} (hobject : ∀ a ∈ l, ∃ ms, write a = .object ms)
    (hread : ∀ a ∈ l, decode d (write a).compact = .ok a) :
    readRecords d (utf8 (writeRecords (l.map write))) = .ok ((l.zipIdx 1).map Prod.swap) := by
  have hcut : cut (utf8 (writeRecords (l.map write))) = l.map fun a => utf8 (write a).compact := by
    have happend := cut_writeRecords (l.map write) []
    rwa [List.append_nil, cut, List.append_nil, List.map_map] at happend
  rw [readRecords, hcut]
  exact readFrom_write hobject hread 1

/-- numbering the records of a stream leaves them as they are -/
theorem map_snd_numbered (l : List α) : ((l.zipIdx 1).map Prod.swap).map Prod.snd = l := by
  rw [List.map_map]
  exact List.zipIdx_map_fst 1 l

/-- the record on a line has the property that its decoder yields -/
theorem yields_record? {P : α → Prop} (h : Yields d P) {line : List UInt8} {a : α} (ha : record? d line = some a) :
    P a := by
  obtain ⟨text, htext⟩ := decoded_of_record? ha
  exact yields_decode h htext

/-- so has every record of a stream that was read -/
theorem yields_readRecords {P : α → Prop} (h : Yields d P) {bytes : List UInt8} {rs : List (ℕ × α)}
    (hrs : readRecords d bytes = .ok rs) : ∀ r ∈ rs, P r.2 := by
  intro r hr
  rw [(readRecords_eq_ok_iff.1 hrs).2] at hr
  obtain ⟨line, -, hrecord⟩ := mem_numbered hr
  exact yields_record? h hrecord

end Records

end Stream

namespace Configuration

/-! ## Configurations -/

/-- a configuration that fact streams can hold: a target is known by its facts only -/
structure Streamable (c : Configuration) : Prop where
  writable : c.Writable
  facts_ne_nil : ∀ e ∈ c.targets.toList, e.2 ≠ []

theorem streamable_of_catalog {catalog : Catalog} (h : Legible catalog.references) : Streamable { catalog } :=
  ⟨⟨h, List.forall_mem_nil _⟩, List.forall_mem_nil _⟩

/-- a fact pushed to a target -/
theorem Streamable.push {c : Configuration} (h : c.Streamable) {t : TypeRef} {f : Fact} (ht : t.Valid)
    (hf : f.Writable) : (c.push t f).Streamable := by
  have hknown : ∀ g ∈ c.facts t, g.Writable := by
    intro g hg
    unfold facts SortedBy.get? at hg
    cases hfind : c.targets.find? t with
    | none => rw [hfind] at hg; cases hg
    | some e =>
      rw [hfind] at hg
      exact (h.writable.targets e (SortedBy.mem_of_find? hfind)).2 g hg
  have hmember : ∀ e ∈ (c.push t f).targets.toList, e = (t, c.facts t ++ [f]) ∨ e ∈ c.targets.toList := by
    intro e he
    rw [Configuration.push, SortedBy.toList_insert] at he
    exact SortedBy.mem_place he
  refine ⟨⟨h.writable.catalog, fun e he => ?_⟩, fun e he => ?_⟩
  · rcases hmember e he with rfl | he
    · exact ⟨ht, List.forall_mem_append.2 ⟨hknown, by simpa using hf⟩⟩
    · exact h.writable.targets e he
  · rcases hmember e he with rfl | he
    · exact List.append_ne_nil_of_right_ne_nil _ (List.cons_ne_nil f [])
    · exact h.facts_ne_nil e he

/-- taking a record keeps a configuration one that streams can hold -/
theorem takeRecord_streamable {c c' : Configuration} {r : ℕ × FactRecord} (h : c.Streamable) (hr : r.2.Writable)
    (htake : takeRecord c r = .ok c') : c'.Streamable := by
  obtain ⟨line, d | ⟨t, f⟩⟩ := r
  · simp only [takeRecord] at htake
    split at htake
    next =>
      split_ifs at htake
      cases htake
      exact h
    next =>
      cases htake
      refine ⟨⟨(Catalog.legible_iff _).2 fun e he => ?_, h.writable.targets⟩, h.facts_ne_nil⟩
      rw [SortedBy.toList_insert] at he
      rcases SortedBy.mem_place he with rfl | he
      · exact hr
      · exact (Catalog.legible_iff _).1 h.writable.catalog e he
  · cases htake
    exact h.push hr.1 hr.2

theorem takeAll_streamable {c c' : Configuration} {rs : List (ℕ × FactRecord)} (h : c.Streamable)
    (hrs : ∀ r ∈ rs, r.2.Writable) (htake : rs.foldlM takeRecord c = .ok c') : c'.Streamable := by
  induction rs generalizing c with
  | nil => cases htake; exact h
  | cons r rs ih =>
    obtain ⟨hr, hrs⟩ := List.forall_mem_cons.1 hrs
    rw [List.foldlM_cons] at htake
    obtain ⟨c₁, hfirst, hrest⟩ := TypeRef.bind_eq_ok htake
    exact ih (takeRecord_streamable h hr hfirst) hrs hrest

/-- whatever is read from a stream can be written to one -/
theorem streamable_of_read {bytes : List UInt8} {c : Configuration} (h : read bytes = .ok c) : c.Streamable := by
  obtain ⟨rs, hrs, htake⟩ := TypeRef.bind_eq_ok h
  have hempty : Streamable {} := streamable_of_catalog (List.forall_mem_nil _)
  exact takeAll_streamable hempty (Stream.yields_readRecords FactRecord.faithful.yields hrs) htake

theorem toJson_object (r : FactRecord) : ∃ ms, r.toJson = .object ms := by
  match r with
  | .type d => exact ⟨_, rfl⟩
  | .fact t (.mixin f) => exact ⟨_, rfl⟩
  | .fact t (.completeInterface f) => exact ⟨_, rfl⟩

theorem records_writable {c : Configuration} (h : c.Writable) : ∀ r ∈ c.records, r.Writable := by
  refine List.forall_mem_append.2 ⟨List.forall_mem_map.2 ((Catalog.legible_iff _).1 h.catalog), ?_⟩
  refine List.forall_mem_flatMap.2 fun e he => List.forall_mem_map.2 fun f hf => ?_
  exact ⟨(h.targets e he).1, (h.targets e he).2 f hf⟩

/-- the records of a configuration make that configuration, whatever lines they are on -/
theorem taken_records {c : Configuration} (h : ∀ e ∈ c.targets, e.2 ≠ []) {rs : List (ℕ × FactRecord)}
    (hrs : rs.map Prod.snd = c.records) : rs.foldlM takeRecord {} = .ok c := by
  obtain ⟨c', hfold, hc'⟩ := takeAll_ok (hrs ▸ coherent_records c)
  rw [hrs] at hc'
  rw [hfold, hc'.eq (says_records h) (fun _ => Iff.rfl) fun _ => rfl]

theorem read_written {c : Configuration} (h : c.Streamable) : read (utf8 c.write) = .ok c := by
  have hread : Stream.readRecords FactRecord.decode (utf8 c.write) = .ok ((c.records.zipIdx 1).map Prod.swap) := by
    refine Stream.readRecords_write (fun r _ => toJson_object r) fun r hr => ?_
    exact (FactRecord.faithful.roundTrip (by decide)).read_back r (records_writable h.writable r hr)
  show (Stream.readRecords FactRecord.decode (utf8 c.write) >>= fun rs => rs.foldlM takeRecord {}) = .ok c
  rw [hread]
  exact taken_records h.facts_ne_nil (Stream.map_snd_numbered c.records)

/-- **A configuration is read back from its fact stream.** Its references were read from texts, its mixin facts are finished,
and every target has a fact; pushing facts keeps it so, and whatever is read from a stream is so. Nothing is asked of the
characters of names and origins. -/
theorem stream_round_trip :
    (∀ c : Configuration, c.Streamable → read (utf8 c.write) = .ok c) ∧
      (∀ (bytes : List UInt8) (c : Configuration), read bytes = .ok c → c.Streamable) ∧
      (∀ catalog : Catalog, Legible catalog.references → Streamable { catalog }) ∧
      ∀ (c : Configuration) (t : TypeRef) (f : Fact), c.Streamable → t.Valid → f.Writable → (c.push t f).Streamable :=
  ⟨fun _ => read_written, fun _ _ => streamable_of_read,
    fun _ => streamable_of_catalog, fun _ _ _ h ht hf => h.push ht hf⟩

/-- a class whose names have number signs, line ends and blanks in them, and an order with two facts -/
def oddConfiguration : Configuration :=
  let row : TypeDecl :=
    { name := " #Row\r\n"
      kind := .classType
      genericParams := [⟨"\u2029", [⟨"Sortable", []⟩]⟩]
      members := .ofList ["\n#", "\t\"", ""] }
  (Configuration.push { catalog := .ofList [row] } ⟨"Shop.Order", []⟩ oddFact).push ⟨"Shop.Order", []⟩ oddFact

theorem oddConfiguration_stream : read (utf8 oddConfiguration.write) = .ok oddConfiguration := by
  obtain ⟨hread, -, hcatalog, hpush⟩ := stream_round_trip
  have horder : TypeRef.Valid ⟨"Shop.Order", []⟩ := ⟨by decide, trivial⟩
  have hsortable : TypeRef.Valid ⟨"Sortable", []⟩ := ⟨by decide, trivial⟩
  refine hread _ (hpush _ _ _ (hpush _ _ _ (hcatalog _ ?_) horder oddFact_writable) horder oddFact_writable)
  exact legible_cons.2 ⟨hsortable, List.forall_mem_nil _⟩

end Configuration

end MixinPlanner
