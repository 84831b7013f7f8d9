/-
Reading a stream of records line by line: what is read if every line can be, and what is at fault if one cannot.

A line can be read when its bytes are text and, unless it is passed over, the text is a document of one record. The reader
either takes the records of all lines with their numbers, or ends at the first line that it cannot read.
- `readLine_cases`: the two ends of one line;
- `readFrom_cases`: the two ends of a run over lines;
- `readRecords_eq_ok_iff`, `readRecords_eq_error_iff`: each end happens exactly where its description fits;
- `taken_of_steps`, `refused_at`: the two ends of taking the records in turn.
-/
import Mathlib.Tactic
import MixinPlanner.Stream.Lines

namespace MixinPlanner.Stream

open Wire

variable {α : Type}

/-! ## Lines -/

/-- the characters of a line between the blanks at its ends -/
def content (text : String) : List Char := Text.trimBlanks text.toList

/-- a line that can be read: its bytes are text, and it is passed over or holds one record -/
structure Readable (d : Decoder α) (line : List UInt8) : Prop where
  text : ∃ s, textOf line = some s
  record : ∀ s, textOf line = some s → isSkipped (content s) = false → ∃ a, decode d (String.ofList (content s)) = .ok a

/-- the record on a line, if it holds one -/
def record? (d : Decoder α) (line : List UInt8) : Option α :=
  (textOf line).bind fun s =>
    if isSkipped (content s) then none else (decode d (String.ofList (content s))).toOption

/-- what is at fault with a line that cannot be read, under the number of the line -/
inductive FaultOn (d : Decoder α) (number : ℕ) (line : List UInt8) : Error → Prop
  | notText (h : textOf line = none) : FaultOn d number line (.notText number)
  | fault {s : String} {f : Fault} (htext : textOf line = some s) (hrecord : isSkipped (content s) = false)
      (h : decode d (String.ofList (content s)) = .error f) : FaultOn d number line (.fault number f)

/-- the records on lines from a number on, each with the number of its line -/
def numbered (d : Decoder α) (number : ℕ) (lines : List (List UInt8)) : List (ℕ × α) :=
  (lines.zipIdx number).filterMap fun e => (record? d e.1).map (e.2, ·)

section Line

variable {d : Decoder α} {line : List UInt8} {lines : List (List UInt8)} {number : ℕ} {e : Error}

theorem numbered_cons : numbered d number (line :: lines) =
    ((record? d line).map (number, ·)).toList ++ numbered d (number + 1) lines := by
  rw [numbered, List.zipIdx_cons, List.filterMap_cons, numbered]
  cases record? d line <;> rfl

theorem numbered_append {after : List (List UInt8)} : numbered d number (lines ++ after) =
    numbered d number lines ++ numbered d (number + lines.length) after := by
  rw [numbered, List.zipIdx_append, List.filterMap_append, numbered, numbered]

/-- without their numbers these are the records of the lines -/
theorem numbered_map_snd : (numbered d number lines).map Prod.snd = lines.filterMap (record? d) := by
  induction lines generalizing number with
  | nil => rfl
  | cons line lines ih =>
    rw [numbered_cons, List.map_append, ih, List.filterMap_cons]
    cases record? d line <;> rfl

theorem mem_numbered {r : ℕ × α} (h : r ∈ numbered d number lines) : ∃ line ∈ lines, record? d line = some r.2 := by
  have hmem := List.mem_map_of_mem (f := Prod.snd) h
  rw [numbered_map_snd, List.mem_filterMap] at hmem
  exact hmem

theorem FaultOn.not_readable (h : FaultOn d number line e) : ¬ Readable d line := by
  intro hline
  cases h with
  | notText h =>
    obtain ⟨s, hs⟩ := hline.text
    rw [h] at hs
    cases hs
  | fault htext hrecord h =>
    obtain ⟨a, ha⟩ := hline.record _ htext hrecord
    rw [h] at ha
    cases ha

/-- **The ends of one line.** It can be read, and its record is taken if it holds one; or it is at fault. -/
theorem readLine_cases (d : Decoder α) (number : ℕ) (line : List UInt8) :
    (Readable d line ∧ readLine d number line = .ok ((record? d line).map (number, ·))) ∨
      ∃ e, FaultOn d number line e ∧ readLine d number line = .error e := by
  cases htext : textOf line with
  | none => exact .inr ⟨_, .notText htext, by simp only [readLine, htext]⟩
  | some s =>
    have honly : ∀ {t : String}, textOf line = some t → t = s := fun ht => Option.some.inj (ht.symm.trans htext)
    cases hskip : isSkipped (content s) with
    | true =>
      refine .inl ⟨⟨⟨s, htext⟩, fun t ht hrecorded => ?_⟩, ?_⟩
      · rw [honly ht, hskip] at hrecorded
        cases hrecorded
      · rw [content] at hskip
        simp [readLine, record?, content, htext, hskip]
    | false =>
      cases hdecode : decode d (String.ofList (content s)) with
      | ok a =>
        refine .inl ⟨⟨⟨s, htext⟩, fun t ht _ => ⟨a, honly ht ▸ hdecode⟩⟩, ?_⟩
        rw [content] at hskip hdecode
        simp [readLine, record?, content, htext, hskip, hdecode, Except.toOption]
      | error f =>
        refine .inr ⟨_, .fault htext hskip hdecode, ?_⟩
        rw [content] at hskip hdecode
        simp [readLine, htext, hskip, hdecode]

theorem readLine_of_readable (h : Readable d line) (number : ℕ) :
    readLine d number line = .ok ((record? d line).map (number, ·)) := by
  rcases readLine_cases d number line with ⟨-, hread⟩ | ⟨e, hfault, -⟩
  · exact hread
  · exact absurd h hfault.not_readable

theorem readLine_of_fault (h : FaultOn d number line e) : readLine d number line = .error e := by
  cases h with
  | notText h => simp only [readLine, h]
  | fault htext hrecord h =>
    simp only [content] at hrecord h
    simp [readLine, htext, hrecord, h]

theorem record?_eq_some {a : α} : record? d line = some a ↔
    ∃ s, textOf line = some s ∧ isSkipped (content s) = false ∧ decode d (String.ofList (content s)) = .ok a := by
  rw [record?, Option.bind_eq_some_iff]
  refine exists_congr fun s => and_congr_right' ?_
  cases isSkipped (content s) <;> cases decode d (String.ofList (content s)) <;> simp [Except.toOption]

theorem record?_of_readLine {a : α} (h : readLine d number line = .ok (some (number, a))) : record? d line = some a := by
  rcases readLine_cases d number line with ⟨-, hread⟩ | ⟨e, -, hread⟩
  · rw [hread, Except.ok.injEq, Option.map_eq_some_iff] at h
    obtain ⟨b, hb, hpair⟩ := h
    rw [hb, (Prod.mk.inj hpair).2]
  · rw [hread] at h
    cases h

/-- a record found on a line was read from a text -/
theorem decoded_of_record? {a : α} (h : record? d line = some a) : ∃ text, decode d text = .ok a := by
  obtain ⟨s, -, -, hdecode⟩ := record?_eq_some.1 h
  exact ⟨_, hdecode⟩

/-- a line on which a record was found is a line that can be read -/
theorem readable_of_record? {a : α} (h : record? d line = some a) : Readable d line := by
  obtain ⟨s, htext, -, hdecode⟩ := record?_eq_some.1 h
  refine ⟨⟨s, htext⟩, fun t ht _ => ⟨a, ?_⟩⟩
  rwa [Option.some.inj (ht.symm.trans htext)]

end Line

/-! ## Runs over lines -/

section Lines

variable {d : Decoder α} {number : ℕ}

/-- the first of some lines that cannot be read, and what is at fault with it -/
inductive FirstFault (d : Decoder α) (number : ℕ) : List (List UInt8) → Error → Prop
  | mk {before : List (List UInt8)} {line : List UInt8} {after : List (List UInt8)} {e : Error}
      (hbefore : ∀ l ∈ before, Readable d l) (h : FaultOn d (number + before.length) line e) :
      FirstFault d number (before ++ line :: after) e

theorem FirstFault.not_readable {lines : List (List UInt8)} {e : Error} (h : FirstFault d number lines e) :
    ¬ ∀ l ∈ lines, Readable d l := by
  cases h with
  | mk hbefore h => exact fun hlines => h.not_readable (hlines _ (by simp))

theorem FirstFault.cons {line : List UInt8} {lines : List (List UInt8)} {e : Error} (hline : Readable d line)
    (h : FirstFault d (number + 1) lines e) : FirstFault d number (line :: lines) e := by
  cases h with
  | @mk before faulty after e hbefore h =>
    rw [← List.cons_append]
    refine .mk (List.forall_mem_cons.2 ⟨hline, hbefore⟩) ?_
    rwa [List.length_cons, Nat.add_comm before.length 1, ← Nat.add_assoc]

/-- **The ends of a run over lines.** All can be read, and their records are taken; or the first that cannot decides. -/
theorem readFrom_cases (d : Decoder α) (number : ℕ) (lines : List (List UInt8)) :
    ((∀ l ∈ lines, Readable d l) ∧ readFrom d number lines = .ok (numbered d number lines)) ∨
      ∃ e, FirstFault d number lines e ∧ readFrom d number lines = .error e := by
  induction lines generalizing number with
  | nil => exact .inl ⟨List.forall_mem_nil _, rfl⟩
  | cons line lines ih =>
    rcases readLine_cases d number line with ⟨hline, hread⟩ | ⟨e, hfault, hread⟩
    · rcases ih (number + 1) with ⟨hlines, hmore⟩ | ⟨e, hfirst, hmore⟩
      · refine .inl ⟨List.forall_mem_cons.2 ⟨hline, hlines⟩, ?_⟩
        rw [readFrom, hread, hmore, numbered_cons]
        rfl
      · refine .inr ⟨e, hfirst.cons hline, ?_⟩
        rw [readFrom, hread, hmore]
        rfl
    · have hfirst : FirstFault d number ([] ++ line :: lines) e := .mk (List.forall_mem_nil _) hfault
      refine .inr ⟨e, hfirst, ?_⟩
      rw [readFrom, hread]
      rfl

theorem readFrom_of_firstFault {lines : List (List UInt8)} {e : Error} (h : FirstFault d number lines e) :
    readFrom d number lines = .error e := by
  cases h with
  | @mk before line after e hbefore h =>
    induction before generalizing number with
    | nil =>
      have hline : readLine d number line = .error e := readLine_of_fault h
      rw [List.nil_append, readFrom, hline]
      rfl
    | cons l before ih =>
      obtain ⟨hl, hbefore⟩ := List.forall_mem_cons.1 hbefore
      rw [List.length_cons, Nat.add_comm before.length 1, ← Nat.add_assoc] at h
      rw [List.cons_append, readFrom, readLine_of_readable hl, ih hbefore h]
      rfl

/-- the records of a stream are read when every line can be, and they are those of its lines -/
theorem readRecords_eq_ok_iff {bytes : List UInt8} {rs : List (ℕ × α)} : readRecords d bytes = .ok rs ↔
    (∀ l ∈ cut bytes, Readable d l) ∧ rs = numbered d 1 (cut bytes) := by
  rcases readFrom_cases d 1 (cut bytes) with ⟨hlines, hread⟩ | ⟨e, hfirst, hread⟩
  · rw [readRecords, hread, Except.ok.injEq, and_iff_right hlines, eq_comm]
  · rw [readRecords, hread]
    exact iff_of_false (by simp) fun h => hfirst.not_readable h.1

/-- reading a stream ends with an error at the first line that cannot be read -/
theorem readRecords_eq_error_iff {bytes : List UInt8} {e : Error} :
    readRecords d bytes = .error e ↔ FirstFault d 1 (cut bytes) e := by
  refine ⟨fun h => ?_, readFrom_of_firstFault⟩
  rcases readFrom_cases d 1 (cut bytes) with ⟨-, hread⟩ | ⟨e', hfirst, hread⟩
  · rw [readRecords, hread] at h
    cases h
  · rw [readRecords, hread, Except.error.injEq] at h
    exact h ▸ hfirst

end Lines

/-! ## Records taken in turn -/

section Taking

variable {σ ρ ε : Type} {take : σ → ℕ × ρ → Except ε σ} {s₀ s : σ}

/-- **Records are all taken** if each can be that is good after those before it. What a state holds grows with them. -/
theorem taken_of_steps (Good : List ρ → Prop) (Holds : σ → List ρ → Prop) (hstart : Holds s₀ [])
    (hbefore : ∀ {rs : List ρ} {r : ρ}, Good (rs ++ [r]) → Good rs)
    (hstep : ∀ {s : σ} {rs : List ρ} {r : ℕ × ρ}, Holds s rs → Good (rs ++ [r.2]) →
      ∃ s', take s r = .ok s' ∧ Holds s' (rs ++ [r.2])) {rs : List (ℕ × ρ)} (h : Good (rs.map Prod.snd)) :
    ∃ s, rs.foldlM take s₀ = .ok s ∧ Holds s (rs.map Prod.snd) := by
  induction rs using List.reverseRecOn with
  | nil => exact ⟨s₀, rfl, hstart⟩
  | append_singleton rs r ih =>
    rw [List.map_append, List.map_singleton] at h ⊢
    obtain ⟨s, hfold, hs⟩ := ih (hbefore h)
    obtain ⟨s', htake, hs'⟩ := hstep hs h
    refine ⟨s', ?_, hs'⟩
    rw [List.foldlM_append, hfold]
    show [r].foldlM take s = .ok s'
    rw [List.foldlM_cons, htake]
    rfl

/-- a record that is refused ends the run with its error -/
theorem refused_at {before after : List (ℕ × ρ)} {r : ℕ × ρ} {e : ε} (hbefore : before.foldlM take s₀ = .ok s)
    (hr : take s r = .error e) : (before ++ r :: after).foldlM take s₀ = .error e := by
  rw [List.foldlM_append, hbefore]
  show (r :: after).foldlM take s = .error e
  rw [List.foldlM_cons, hr]
  rfl

end Taking

end MixinPlanner.Stream
