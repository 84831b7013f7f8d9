/-
What was laid out for hashing can be told from its layout, whatever bytes follow it.

A field ends at the first line feed if its value has none. The elements of a list may hold any characters, line feeds, commas
and number signs too: their number stands before them, and each stands after its own length.
- `append_mark_inj`: bytes up to a mark that is not among them;
- `line_append_inj`: the value of a field without line feeds;
- `sized_append_inj`, `elements_append_inj`: one element after its length, and the elements of a list;
- `lines_append_inj`: the two fields of a list;
- `list_uniquely_decodable`: so a list that is laid out after other parts, and whatever comes after it.
-/
import Mathlib.Tactic
import MixinPlanner.Proofs.CacheKey
import MixinPlanner.Proofs.Streams

namespace MixinPlanner.Fields

/-! ## Bytes -/

/-- what stands before the first occurrence of a mark can be told from what follows it -/
theorem append_mark_inj {α : Type} {mark : α} {x y u v : List α} (hx : mark ∉ x) (hy : mark ∉ y)
    (h : x ++ mark :: u = y ++ mark :: v) : x = y ∧ u = v := by
  induction x generalizing y with
  | nil =>
    cases y with
    | nil => exact ⟨rfl, (List.cons.inj h).2⟩
    | cons b y => exact absurd (List.cons.inj h).1 (List.ne_of_not_mem_cons hy)
  | cons a x ih =>
    cases y with
    | nil => exact absurd (List.cons.inj h).1.symm (List.ne_of_not_mem_cons hx)
    | cons b y =>
      obtain ⟨hab, h⟩ := List.cons.inj h
      obtain ⟨hxy, huv⟩ := ih (List.not_mem_of_not_mem_cons hx) (List.not_mem_of_not_mem_cons hy) h
      exact ⟨by rw [hab, hxy], huv⟩

/-- the bytes of a text without some ASCII character, up to the byte of that character -/
theorem utf8_append_mark_inj (mark : Char) (hmark : mark.toNat < 128) {s t : String} (hs : mark ∉ s.toList)
    (ht : mark ∉ t.toList) {u v : List UInt8}
    (h : utf8 s ++ UInt8.ofNat mark.toNat :: u = utf8 t ++ UInt8.ofNat mark.toNat :: v) : s = t ∧ u = v := by
  have hbyte : ∀ {r : String}, mark ∉ r.toList → UInt8.ofNat mark.toNat ∉ utf8 r := fun {r} hr => by
    have hmem := Stream.byte_not_mem hmark hr
    rwa [String.ofList_toList] at hmem
  obtain ⟨hst, huv⟩ := append_mark_inj (hbyte hs) (hbyte ht) h
  exact ⟨utf8_inj hst, huv⟩

/-- the digits of a number, up to something that is not a digit -/
theorem digits_append_mark_inj (mark : Char) (hmark : mark.toNat < 128) (hdigit : mark.isDigit = false) {m n : ℕ}
    {u v : List UInt8}
    (h : utf8 (toString m) ++ UInt8.ofNat mark.toNat :: u = utf8 (toString n) ++ UInt8.ofNat mark.toNat :: v) :
    m = n ∧ u = v := by
  have hnot : ∀ k : ℕ, mark ∉ (toString k).toList := by
    intro k hk
    rw [Json.isDigit_of_mem_repr hk] at hdigit
    cases hdigit
  obtain ⟨hmn, huv⟩ := utf8_append_mark_inj mark hmark (hnot m) (hnot n) h
  exact ⟨Json.repr_toList_inj (congrArg String.toList hmn), huv⟩

/-! ## Fields -/

theorem line_append (name value : String) (rest : List UInt8) :
    line name value ++ rest = utf8 name ++ 58 :: (utf8 value ++ 10 :: rest) := by
  have hcolon : utf8 ":" = [58] := by decide
  have hfeed : utf8 "\n" = [10] := by decide
  rw [line, hcolon, hfeed]
  simp only [List.append_assoc, List.cons_append, List.nil_append]

/-- a field can be told from its bytes if its value has no line feed -/
theorem line_append_inj {name value value' : String} (hvalue : '\n' ∉ value.toList) (hvalue' : '\n' ∉ value'.toList)
    {u v : List UInt8} (h : line name value ++ u = line name value' ++ v) : value = value' ∧ u = v := by
  rw [line_append, line_append] at h
  have hrest := (List.cons.inj (List.append_cancel_left h)).2
  exact utf8_append_mark_inj '\n' (by decide) hvalue hvalue' hrest

/-! ## Lists -/

/-- an element after its length in bytes and a number sign -/
def sized (value : String) : List UInt8 := utf8 (toString value.utf8ByteSize) ++ 35 :: utf8 value

/-- an element can be told from its bytes, whatever characters it has -/
theorem sized_append_inj {x y : String} {u v : List UInt8} (h : sized x ++ u = sized y ++ v) : x = y ∧ u = v := by
  rw [sized, sized, List.append_assoc, List.append_assoc, List.cons_append, List.cons_append] at h
  obtain ⟨hsize, hrest⟩ := digits_append_mark_inj '#' (by decide) (by decide) h
  have hlength : (utf8 x).length = (utf8 y).length := hsize
  obtain ⟨hbytes, huv⟩ := List.append_inj hrest hlength
  exact ⟨utf8_inj hbytes, huv⟩

/-- elements, each after a comma -/
def elements (values : List String) : List UInt8 := values.flatMap fun value => 44 :: sized value

theorem elements_cons_append (x : String) (xs : List String) (u : List UInt8) :
    elements (x :: xs) ++ u = 44 :: (sized x ++ (elements xs ++ u)) := by
  rw [elements, List.flatMap_cons, List.append_assoc, List.cons_append]
  rfl

/-- as many elements of one list as of another can be told from their bytes -/
theorem elements_append_inj {xs ys : List String} (hlength : xs.length = ys.length) {u v : List UInt8}
    (h : elements xs ++ u = elements ys ++ v) : xs = ys ∧ u = v := by
  induction xs generalizing ys with
  | nil =>
    obtain rfl := List.length_eq_zero_iff.1 hlength.symm
    exact ⟨rfl, h⟩
  | cons x xs ih =>
    cases ys with
    | nil => cases hlength
    | cons y ys =>
      rw [elements_cons_append, elements_cons_append] at h
      obtain ⟨hxy, hrest⟩ := sized_append_inj (List.cons.inj h).2
      obtain ⟨hxys, huv⟩ := ih (Nat.succ.inj hlength) hrest
      exact ⟨by rw [hxy, hxys], huv⟩

/-- one comma more, and each element of a list that is not empty stands after a comma -/
theorem comma_joinSized (x : String) (xs : List String) : 44 :: utf8 (joinSized (x :: xs)) = elements (x :: xs) := by
  have hsized : ∀ value : String, utf8 (toString value.utf8ByteSize ++ "#" ++ value) = sized value := by
    intro value
    have hsign : utf8 "#" = [35] := by decide
    rw [utf8_append, utf8_append, hsign, sized, List.append_assoc, List.singleton_append]
  have hcomma : utf8 "," = [44] := by decide
  induction xs generalizing x with
  | nil =>
    have hsingle : joinSized [x] = toString x.utf8ByteSize ++ "#" ++ x := by
      simp only [joinSized, List.map_cons, List.map_nil, String.intercalate_singleton]
    rw [hsingle, hsized, elements, List.flatMap_singleton]
  | cons y ys ih =>
    have hjoin : joinSized (x :: y :: ys) = toString x.utf8ByteSize ++ "#" ++ x ++ "," ++ joinSized (y :: ys) := by
      simp only [joinSized, List.map_cons, String.intercalate_cons_cons]
    rw [hjoin, utf8_append, utf8_append, hsized, hcomma, List.append_assoc, List.singleton_append, ih y,
      ← List.append_nil (elements (x :: y :: ys)), elements_cons_append, List.append_nil]

/-- **A list can be told from its layout.** Its elements may have any characters, and any bytes may follow. -/
theorem lines_append_inj {name : String} {xs ys : List String} {u v : List UInt8}
    (h : lines name xs ++ u = lines name ys ++ v) : xs = ys ∧ u = v := by
  -- the number of the elements first, as it says how many are to be taken
  rw [lines, lines, List.append_assoc, List.append_assoc, line_append, line_append (name ++ ".len")] at h
  have hcount := (List.cons.inj (List.append_cancel_left h)).2
  obtain ⟨hlength, h⟩ := digits_append_mark_inj '\n' (by decide) (by decide) hcount
  rw [line_append, line_append name (joinSized ys)] at h
  have hjoined := List.append_cancel_left h
  rcases xs with _ | ⟨x, xs⟩ <;> rcases ys with _ | ⟨y, ys⟩
  · exact ⟨rfl, (List.cons.inj (List.append_cancel_left (List.cons.inj hjoined).2)).2⟩
  · cases hlength
  · cases hlength
  · have helements : elements (x :: xs) ++ 10 :: u = elements (y :: ys) ++ 10 :: v := by
      rw [← comma_joinSized, ← comma_joinSized, List.cons_append, List.cons_append, (List.cons.inj hjoined).2]
    obtain ⟨hxys, huv⟩ := elements_append_inj hlength helements
    exact ⟨hxys, (List.cons.inj huv).2⟩

/-- **The layout of a list is uniquely decodable.** After the same parts and under the same name, what is laid out of two
lists, with further bytes after each, is the same only if the lists are, and the further bytes too. -/
theorem list_uniquely_decodable (before : Fields) (name : String) (xs ys : List String) (u v : List UInt8) :
    before.list name xs ++ u = before.list name ys ++ v ↔ xs = ys ∧ u = v := by
  constructor
  · intro h
    rw [list, list, List.append_assoc, List.append_assoc] at h
    exact lines_append_inj (List.append_cancel_left h)
  · rintro ⟨rfl, rfl⟩
    rfl

/-- an element that looks like the end of one element and the start of another -/
example : empty.list "xs" ["a,1#b"] ≠ empty.list "xs" ["a", "b"] := by decide

end MixinPlanner.Fields
