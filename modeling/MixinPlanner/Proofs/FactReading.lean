/-
Which fact streams are loaded, what is made of them, and why the others are refused.

A stream is loaded when all its lines can be read and the records on them are coherent. The configuration then says what
those records say, so it does not matter how types, targets, comments and blank lines are mixed: only the facts of one
target among each other.

Lines come first: a line that cannot be read decides even if a record above it declares a type otherwise than another.
- `read_of_loadable`, `read_of_refused`, `loadable_or_refused`: one of two ends, each with its result;
- `Refused.number`: the number in the error is that of the first line at fault;
- `fact_stream_meaning`: the reading of a whole stream.
-/
import MixinPlanner.Proofs.Streams

namespace MixinPlanner.Configuration

open FactRecord (factsOf Coherent Clashes)
open MixinPlanner.Stream (cut textOf Readable record? numbered FirstFault)

/-! ## Streams -/

/-- the records on some lines, in their order -/
def recordsOn (lines : List (List UInt8)) : List FactRecord := lines.filterMap (record? FactRecord.decode)

theorem recordsOn_snoc (lines : List (List UInt8)) (line : List UInt8) :
    recordsOn (lines ++ [line]) = recordsOn lines ++ (record? FactRecord.decode line).toList := by
  rw [recordsOn, List.filterMap_append, ← recordsOn]
  cases hline : record? FactRecord.decode line <;> simp [hline]

/-- a stream that is loaded: every line can be read, and the records on the lines are coherent -/
structure Loadable (bytes : List UInt8) : Prop where
  readable : ∀ line ∈ cut bytes, Readable FactRecord.decode line
  coherent : Coherent (recordsOn (cut bytes))

/-- why a stream is refused: its first line that cannot be read, or else the first on which a type is declared otherwise
than above, with the number of that line -/
inductive Refused (bytes : List UInt8) : Stream.Error → Prop
  | line {e : Stream.Error} (h : FirstFault FactRecord.decode 1 (cut bytes) e) : Refused bytes e
  | type {before after : List (List UInt8)} {line : List UInt8} {r : FactRecord} {name : String}
      (hlines : ∀ l ∈ cut bytes, Readable FactRecord.decode l) (hcut : cut bytes = before ++ line :: after)
      (hbefore : Coherent (recordsOn before)) (hline : record? FactRecord.decode line = some r)
      (h : Clashes (recordsOn before) r name) : Refused bytes (.conflictingType (before.length + 1) name)

/-- the records on lines are coherent, or there is a first line with one that clashes -/
theorem coherent_or_clash (lines : List (List UInt8)) : Coherent (recordsOn lines) ∨
    ∃ before line after r name, lines = before ++ line :: after ∧ Coherent (recordsOn before) ∧
      record? FactRecord.decode line = some r ∧ Clashes (recordsOn before) r name := by
  induction lines using List.reverseRecOn with
  | nil => exact .inl FactRecord.coherent_nil
  | append_singleton lines line ih =>
    rcases ih with hlines | ⟨before, l, after, r, name, rfl, hfirst⟩
    · rw [recordsOn_snoc]
      cases hline : record? FactRecord.decode line with
      | none => exact .inl (by simpa using hlines)
      | some r =>
        refine (FactRecord.coherent_snoc hlines r).imp id fun ⟨name, h⟩ => ?_
        exact ⟨lines, line, [], r, name, rfl, hlines, hline, h⟩
    · exact .inr ⟨before, l, after ++ [line], r, name, by simp, hfirst⟩

theorem loadable_or_refused (bytes : List UInt8) : Loadable bytes ∨ ∃ e, Refused bytes e := by
  cases hrecords : Stream.readRecords FactRecord.decode bytes with
  | error e => exact .inr ⟨e, .line (Stream.readRecords_eq_error_iff.1 hrecords)⟩
  | ok rs =>
    obtain ⟨hlines, -⟩ := Stream.readRecords_eq_ok_iff.1 hrecords
    rcases coherent_or_clash (cut bytes) with h | ⟨before, line, after, r, name, hcut, hbefore, hline, h⟩
    · exact .inl ⟨hlines, h⟩
    · exact .inr ⟨_, .type hlines hcut hbefore hline h⟩

/-! ## The two ends of reading -/

/-- a stream with lines that can be read is what taking their records makes -/
theorem read_of_readable {bytes : List UInt8} (h : ∀ line ∈ cut bytes, Readable FactRecord.decode line) :
    read bytes = (numbered FactRecord.decode 1 (cut bytes)).foldlM takeRecord {} := by
  rw [read, Stream.readRecords_eq_ok_iff.2 ⟨h, rfl⟩]
  rfl

theorem read_of_loadable {bytes : List UInt8} (h : Loadable bytes) :
    ∃ c, read bytes = .ok c ∧ c.Says (recordsOn (cut bytes)) := by
  have hrecords : (numbered FactRecord.decode 1 (cut bytes)).map Prod.snd = recordsOn (cut bytes) := Stream.numbered_map_snd
  rw [read_of_readable h.readable, ← hrecords]
  exact takeAll_ok (hrecords ▸ h.coherent)

theorem read_of_refused {bytes : List UInt8} {e : Stream.Error} (h : Refused bytes e) : read bytes = .error e := by
  cases h with
  | line h =>
    rw [read, Stream.readRecords_eq_error_iff.2 h]
    rfl
  | @type before after line r name hlines hcut hbefore hline h =>
    have hrecords : (numbered FactRecord.decode 1 before).map Prod.snd = recordsOn before := Stream.numbered_map_snd
    have hnumbered : numbered FactRecord.decode 1 (cut bytes) = numbered FactRecord.decode 1 before ++
        (before.length + 1, r) :: numbered FactRecord.decode (1 + before.length + 1) after := by
      rw [hcut, Stream.numbered_append, Stream.numbered_cons, hline, Nat.add_comm 1 before.length]
      rfl
    rw [read_of_readable hlines, hnumbered]
    rw [← hrecords] at hbefore h
    exact takeAll_error hbefore h

theorem Refused.not_loadable {bytes : List UInt8} {e : Stream.Error} (h : Refused bytes e) : ¬ Loadable bytes := by
  intro hload
  obtain ⟨c, hread, -⟩ := read_of_loadable hload
  rw [read_of_refused h] at hread
  cases hread

theorem read_eq_ok_iff {bytes : List UInt8} {c : Configuration} :
    read bytes = .ok c ↔ Loadable bytes ∧ c.Says (recordsOn (cut bytes)) := by
  rcases loadable_or_refused bytes with hload | ⟨e, h⟩
  · obtain ⟨c', hread, hc'⟩ := read_of_loadable hload
    rw [hread, Except.ok.injEq, and_iff_right hload]
    constructor
    · rintro rfl
      exact hc'
    · exact fun hc => hc'.eq hc (fun _ => Iff.rfl) fun _ => rfl
  · rw [read_of_refused h]
    exact iff_of_false (by simp) fun hload => h.not_loadable hload.1

theorem read_eq_error_iff {bytes : List UInt8} {e : Stream.Error} : read bytes = .error e ↔ Refused bytes e := by
  refine ⟨fun hread => ?_, read_of_refused⟩
  rcases loadable_or_refused bytes with hload | ⟨e', h⟩
  · obtain ⟨c, hok, -⟩ := read_of_loadable hload
    rw [hok] at hread
    cases hread
  · rw [read_of_refused h, Except.error.injEq] at hread
    exact hread ▸ h

theorem exists_read_iff {bytes : List UInt8} : (∃ c, read bytes = .ok c) ↔ Loadable bytes := by
  constructor
  · exact fun ⟨c, h⟩ => (read_eq_ok_iff.1 h).1
  · exact fun h => (read_of_loadable h).imp fun c => And.left

/-! ## The line at fault -/

/-- a line that ends the loading of a stream after some others: it is the first that cannot be read; or all can be read,
and with this line their records stop being coherent -/
def Ends (bytes : List UInt8) (before : List (List UInt8)) (line : List UInt8) : Prop :=
  (∀ l ∈ before, Readable FactRecord.decode l) ∧ ¬ Readable FactRecord.decode line ∨
    (∀ l ∈ cut bytes, Readable FactRecord.decode l) ∧ Coherent (recordsOn before) ∧ ¬ Coherent (recordsOn (before ++ [line]))

/-- **The number in the error is that of the line at fault**, counted from one over all lines. -/
theorem Refused.number {bytes : List UInt8} {e : Stream.Error} (h : Refused bytes e) :
    ∃ before line after, cut bytes = before ++ line :: after ∧ Ends bytes before line ∧ e.line = before.length + 1 := by
  cases h with
  | line h =>
    generalize hlines : cut bytes = lines at h
    cases h with
    | @mk before line after e hbefore h =>
      refine ⟨before, line, after, rfl, .inl ⟨hbefore, h.not_readable⟩, ?_⟩
      rw [← Nat.add_comm 1]
      cases h <;> rfl
  | @type before after line r name hlines hcut hbefore hline h =>
    refine ⟨before, line, after, hcut, .inr ⟨hlines, hbefore, ?_⟩, rfl⟩
    rw [recordsOn_snoc, hline]
    exact h.not_coherent

/-- **What a fact stream means.** A stream is loaded exactly if every line can be read and no two type records of one name
differ. Then the configuration has the declared types and, under each target, the facts stated about it in the order of
their lines. So two streams that are loaded make the same configuration if they declare the same types and state the same
facts about each target in the same order, however their lines are mixed and whatever lines are passed over.

Any other stream is refused at its first line that cannot be read; and if all can be, at the first type record that
differs from one of its name above. The error has the number of that line. -/
theorem fact_stream_meaning :
    (∀ bytes c, read bytes = .ok c ↔ Loadable bytes ∧ c.Says (recordsOn (cut bytes))) ∧
      (∀ bytes, (∃ c, read bytes = .ok c) ↔ Loadable bytes) ∧
      (∀ bytes bytes' c c', read bytes = .ok c → read bytes' = .ok c' →
        (∀ d, .type d ∈ recordsOn (cut bytes) ↔ .type d ∈ recordsOn (cut bytes')) →
        (∀ t, factsOf t (recordsOn (cut bytes)) = factsOf t (recordsOn (cut bytes'))) → c = c') ∧
      (∀ bytes e, read bytes = .error e ↔ Refused bytes e) ∧
      ∀ bytes e, read bytes = .error e → ∃ before line after, cut bytes = before ++ line :: after ∧
        Ends bytes before line ∧ e.line = before.length + 1 := by
  refine ⟨fun _ _ => read_eq_ok_iff, fun _ => exists_read_iff, fun bytes bytes' c c' h h' htypes hfacts => ?_,
    fun _ _ => read_eq_error_iff, fun _ _ h => (read_eq_error_iff.1 h).number⟩
  exact (read_eq_ok_iff.1 h).2.eq (read_eq_ok_iff.1 h').2 htypes hfacts

/-! ## Streams that were written -/

/-- the line that is written of a record holds that record -/
theorem record?_written {r : FactRecord} (h : r.Writable) : record? FactRecord.decode (utf8 r.toJson.compact) = some r := by
  have hread := (FactRecord.faithful.roundTrip (by decide)).read_back r h
  obtain ⟨ms, hms⟩ := toJson_object r
  rw [hms] at hread ⊢
  exact Stream.record?_object hread

/-- the stream of some records -/
def streamOf (rs : List FactRecord) : List UInt8 := utf8 (Stream.writeRecords (rs.map FactRecord.toJson))

theorem cut_streamOf (rs : List FactRecord) (rest : List UInt8) :
    cut (streamOf rs ++ rest) = (rs.map fun r => utf8 r.toJson.compact) ++ cut rest := by
  rw [streamOf, Stream.cut_writeRecords, List.map_map]
  rfl

theorem readable_written {rs : List FactRecord} (h : ∀ r ∈ rs, r.Writable) :
    ∀ line ∈ rs.map fun r => utf8 r.toJson.compact, Readable FactRecord.decode line :=
  List.forall_mem_map.2 fun r hr => Stream.readable_of_record? (record?_written (h r hr))

theorem recordsOn_written {rs : List FactRecord} (h : ∀ r ∈ rs, r.Writable) :
    recordsOn (rs.map fun r => utf8 r.toJson.compact) = rs := by
  rw [recordsOn, List.filterMap_map]
  exact (List.filterMap_congr fun r hr => record?_written (h r hr)).trans List.filterMap_some

theorem loadable_streamOf {rs : List FactRecord} (h : ∀ r ∈ rs, r.Writable) (hrs : Coherent rs) : Loadable (streamOf rs) := by
  have hcut := cut_streamOf rs []
  rw [cut, List.append_nil, List.append_nil] at hcut
  refine ⟨hcut ▸ readable_written h, ?_⟩
  rwa [hcut, recordsOn_written h]

/-- the line of a number sign is passed over -/
theorem comment_passed : Readable FactRecord.decode [35] ∧ record? FactRecord.decode [35] = none := by
  have htext : textOf [35] = some "#" := Stream.textOf_utf8 "#"
  refine ⟨⟨⟨_, htext⟩, fun s hs hrecord => ?_⟩, ?_⟩
  · obtain rfl : "#" = s := Option.some.inj (htext.symm.trans hs)
    exact absurd hrecord (by decide)
  · rw [record?, htext]
    rfl

/-- a class and facts of two targets -/
def rows : List FactRecord :=
  [.type (.ofClass "Row"), .fact ⟨"Order", []⟩ oddFact, .fact ⟨"Refund", []⟩ oddFact]

/-- the same in another arrangement, with the class declared twice -/
def shuffledRows : List FactRecord :=
  [.fact ⟨"Refund", []⟩ oddFact, .type (.ofClass "Row"), .fact ⟨"Order", []⟩ oddFact, .type (.ofClass "Row")]

theorem class_writable : FactRecord.Writable (.type (.ofClass "Row")) := List.forall_mem_nil _

theorem order_writable : FactRecord.Writable (.fact ⟨"Order", []⟩ oddFact) := ⟨⟨by decide, trivial⟩, oddFact_writable⟩

theorem refund_writable : FactRecord.Writable (.fact ⟨"Refund", []⟩ oddFact) := ⟨⟨by decide, trivial⟩, oddFact_writable⟩

theorem rows_writable : ∀ r ∈ rows, r.Writable := by
  simp only [rows, List.forall_mem_cons]
  exact ⟨class_writable, order_writable, refund_writable, List.forall_mem_nil _⟩

theorem shuffledRows_writable : ∀ r ∈ shuffledRows, r.Writable := by
  simp only [shuffledRows, List.forall_mem_cons]
  exact ⟨refund_writable, class_writable, order_writable, class_writable, List.forall_mem_nil _⟩

theorem interface_writable : FactRecord.Writable (.type (.ofInterface "Row")) := List.forall_mem_nil _

/-- the two arrangements make one configuration; an interface under the name of the class is refused with the number of its
line, a comment above it counted; and a line that is not text decides even below that interface -/
theorem shuffled_rows_read :
    (∃ c, read (streamOf rows) = .ok c ∧ read (streamOf shuffledRows) = .ok c) ∧
      read (streamOf shuffledRows ++ 35 :: 10 :: streamOf [.type (.ofInterface "Row")]) =
        .error (.conflictingType 6 "Row") ∧
      read (streamOf (shuffledRows ++ [.type (.ofInterface "Row")]) ++ [255, 10]) = .error (.notText 6) := by
  obtain ⟨-, hloaded, hsame, herror, -⟩ := fact_stream_meaning
  have hrows : Coherent rows := by
    simp [Coherent, rows]
  have hshuffled : Coherent shuffledRows := by
    simp [Coherent, shuffledRows]
  have hcut : ∀ rs, cut (streamOf rs) = rs.map fun r => utf8 r.toJson.compact := by
    intro rs
    have h := cut_streamOf rs []
    rwa [cut, List.append_nil, List.append_nil] at h
  refine ⟨?_, ?_, ?_⟩
  · obtain ⟨c, hc⟩ := (hloaded _).2 (loadable_streamOf rows_writable hrows)
    obtain ⟨c', hc'⟩ := (hloaded _).2 (loadable_streamOf shuffledRows_writable hshuffled)
    have heq : c = c' := by
      refine hsame _ _ c c' hc hc' ?_ ?_
      all_goals rw [hcut, hcut, recordsOn_written rows_writable, recordsOn_written shuffledRows_writable]
      · intro d
        simp [rows, shuffledRows]
      · intro t
        by_cases horder : (⟨"Order", []⟩ : TypeRef) = t
        · subst horder
          simp [factsOf, List.filterMap_cons, FactRecord.factOf, rows, shuffledRows]
        · simp [factsOf, List.filterMap_cons, FactRecord.factOf, rows, shuffledRows, horder]
    exact ⟨c, hc, heq ▸ hc'⟩
  · have hlines : cut (streamOf shuffledRows ++ 35 :: 10 :: streamOf [.type (.ofInterface "Row")]) =
        ((shuffledRows.map fun r => utf8 r.toJson.compact) ++ [[35]]) ++
          utf8 (FactRecord.type (.ofInterface "Row")).toJson.compact :: [] := by
      have hcomment : cut (35 :: 10 :: streamOf [.type (.ofInterface "Row")]) = [35] :: cut (streamOf _) :=
        Stream.cut_line (by decide : (10 : UInt8) ∉ [35]) _
      rw [cut_streamOf, hcomment, hcut, List.append_assoc]
      rfl
    have hbefore : recordsOn ((shuffledRows.map fun r => utf8 r.toJson.compact) ++ [[35]]) = shuffledRows := by
      rw [recordsOn_snoc, recordsOn_written shuffledRows_writable, comment_passed.2]
      rfl
    refine (herror _ _).2 (.type ?_ hlines ?_ (record?_written interface_writable) ?_)
    · rw [hlines, List.forall_mem_append, List.forall_mem_append, List.forall_mem_singleton, List.forall_mem_singleton]
      exact ⟨⟨readable_written shuffledRows_writable, comment_passed.1⟩,
        Stream.readable_of_record? (record?_written interface_writable)⟩
    · rwa [hbefore]
    · rw [hbefore]
      have hknown : .type (.ofClass "Row") ∈ shuffledRows := by simp [shuffledRows]
      exact .type hknown rfl (by simp [TypeDecl.ofClass, TypeDecl.ofInterface])
  · have hwritable : ∀ r ∈ shuffledRows ++ [.type (.ofInterface "Row")], r.Writable :=
      List.forall_mem_append.2 ⟨shuffledRows_writable, List.forall_mem_singleton.2 interface_writable⟩
    refine (herror _ _).2 (.line ?_)
    rw [cut_streamOf]
    exact .mk (readable_written hwritable) (.notText (by decide))

end MixinPlanner.Configuration
