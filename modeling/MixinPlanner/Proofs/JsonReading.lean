/-
A value that was written is read back, whatever follows it.

Reading has bounds that writing does not: integers have 64 bits, and containers are nested to a limit. `Fits` says that a
value keeps within them.
- `readNumber_int`: the digits of a number are read as that number;
- `readValue_chars`: a value is read off the front of a text, with the rest of the text left over;
- `decode_compact`: so decoding the compact form of a value is decoding the value.
-/
import Mathlib.Tactic
import MixinPlanner.Proofs.JsonText
import MixinPlanner.Wire.Decoder

namespace MixinPlanner

namespace Json

open MixinPlanner.Reading

/-! ## What can be read -/

/-- the integers that are read as they are written -/
def InRange (i : ℤ) : Prop := -2 ^ 63 ≤ i ∧ i < 2 ^ 64

/-- containers are nested at most so many levels deep, and every integer is in range -/
def Fits : ℕ → Json → Prop
  | _, null | _, bool _ | _, string _ => True
  | _, int i => InRange i
  | 0, array _ | 0, object _ => False
  | n + 1, array items => ∀ j ∈ items, Fits n j
  | n + 1, object members => ∀ m ∈ members, Fits n m.2

theorem fits_string (n : ℕ) (s : String) : Fits n (string s) := by cases n <;> exact trivial

theorem fits_int {n : ℕ} {i : ℤ} : Fits n (int i) ↔ InRange i := by cases n <;> rfl

theorem fits_nat {n m : ℕ} (h : m < 2 ^ 64) : Fits n (nat m) := by
  rw [nat, fits_int, InRange]
  omega

theorem fits_array {n : ℕ} {items : List Json} : Fits (n + 1) (array items) ↔ ∀ j ∈ items, Fits n j := Iff.rfl

theorem fits_object {n : ℕ} {members : List (String × Json)} :
    Fits (n + 1) (object members) ↔ ∀ m ∈ members, Fits n m.2 := Iff.rfl

/-- a value within a limit is within any larger one -/
theorem Fits.mono {m n : ℕ} (hmn : m ≤ n) {j : Json} (h : Fits m j) : Fits n j := by
  induction m generalizing n j with
  | zero =>
    cases j with
    | null | bool | string => cases n <;> exact trivial
    | int i => exact fits_int.2 (fits_int.1 h)
    | array | object => exact absurd h id
  | succ m ih =>
    obtain ⟨n, rfl⟩ : ∃ k, n = k + 1 := Nat.exists_eq_succ_of_ne_zero (by omega)
    cases j with
    | null | bool | string => exact trivial
    | int i => exact fits_int.2 (fits_int.1 h)
    | array items => exact fun j hj => ih (by omega) (h j hj)
    | object members => exact fun e he => ih (by omega) (h e he)

theorem Fits.exists_succ_of_array {n : ℕ} {items : List Json} (h : Fits n (array items)) : ∃ m, n = m + 1 := by
  cases n with
  | zero => exact absurd h id
  | succ m => exact ⟨m, rfl⟩

theorem Fits.exists_succ_of_object {n : ℕ} {members : List (String × Json)} (h : Fits n (object members)) :
    ∃ m, n = m + 1 := by
  cases n with
  | zero => exact absurd h id
  | succ m => exact ⟨m, rfl⟩

/-! ## Numbers -/

theorem hexValue_digitChar {d : ℕ} (h : d < 10) : Text.hexValue (Nat.digitChar d) = some d := by
  have hdigits : ∀ d < 10, Text.hexValue (Nat.digitChar d) = some d := by decide
  exact hdigits d h

theorem digitsValue_toDigits (n : ℕ) : Text.digitsValue (Nat.toDigits 10 n) = n := by
  induction n using Nat.strong_induction_on with
  | _ n ih =>
    rw [Nat.toDigits_eq_if (by decide)]
    split_ifs with h
    · simp [Text.digitsValue, Text.valueIn, hexValue_digitChar h]
    · have hfront : List.foldl (fun n d => 10 * n + (Text.hexValue d).getD 0) 0 (Nat.toDigits 10 (n / 10)) = n / 10 :=
        ih (n / 10) (by omega)
      rw [Text.digitsValue, Text.valueIn, List.foldl_append, hfront]
      simp only [List.foldl_cons, List.foldl_nil, hexValue_digitChar (Nat.mod_lt n (by decide)), Option.getD_some]
      omega

/-- only zero begins with a zero -/
theorem head?_toDigits {n : ℕ} (h : 0 < n) : (Nat.toDigits 10 n).head? ≠ some '0' := by
  induction n using Nat.strong_induction_on with
  | _ n ih =>
    have hdigits : ∀ d < 10, 0 < d → Nat.digitChar d ≠ '0' := by decide
    rw [Nat.toDigits_eq_if (by decide)]
    split_ifs with hn
    · simpa using hdigits n hn h
    · rw [List.head?_append_of_ne_nil _ Nat.toDigits_ne_nil]
      exact ih (n / 10) (by omega) (by omega)

/-- a written number does not begin with a zero that could be left out -/
theorem no_leading_zero (n : ℕ) :
    ¬ ((Nat.toDigits 10 n).length > 1 ∧ (Nat.toDigits 10 n).head? = some '0') := by
  intro ⟨hlen, hhead⟩
  rcases Nat.eq_zero_or_pos n with rfl | hn
  · exact absurd hlen (by decide)
  · exact head?_toDigits hn hhead

/-- no number that ends before a text goes on in it, be it with more digits, a point or an exponent -/
def EndsNumber (rest : List Char) : Prop :=
  ∀ c ∈ rest.head?, c.isDigit = false ∧ c ≠ '.' ∧ c ≠ 'e' ∧ c ≠ 'E'

theorem endsNumber_nil : EndsNumber [] := fun c hc => by simp at hc

theorem endsNumber_itemsChars (js : List Json) (rest : List Char) : EndsNumber (itemsChars js ++ rest) := by
  cases js <;> simp [EndsNumber, itemsChars]

theorem endsNumber_membersChars (ms : List (String × Json)) (rest : List Char) :
    EndsNumber (membersChars ms ++ rest) := by
  cases ms <;> simp [EndsNumber, membersChars]

theorem readDigits_toDigits (n : ℕ) {rest : List Char} (hr : EndsNumber rest) :
    Text.readDigits (Nat.toDigits 10 n ++ rest) = some (Nat.toDigits 10 n, rest) := by
  have hdigits : ∀ c ∈ Nat.toDigits 10 n, c.isDigit = true :=
    fun c hc => Nat.isDigit_of_mem_toDigits (by decide) (by decide) hc
  have htake : (Nat.toDigits 10 n ++ rest).takeWhile Char.isDigit = Nat.toDigits 10 n := by
    rw [List.takeWhile_append_of_pos hdigits]
    cases rest with
    | nil => simp
    | cons c rest => simp [(hr c rfl).1]
  have hdrop : (Nat.toDigits 10 n ++ rest).dropWhile Char.isDigit = rest := by
    rw [List.dropWhile_append_of_pos hdigits]
    cases rest with
    | nil => rfl
    | cons c rest => simp [(hr c rfl).1]
  unfold Text.readDigits
  rw [htake, hdrop]
  split
  next h => exact absurd h Nat.toDigits_ne_nil
  next => rfl

theorem readFraction_of_endsNumber {rest : List Char} (hr : EndsNumber rest) : readFraction rest = some (none, rest) := by
  unfold readFraction
  split
  next rest => exact absurd rfl (hr '.' rfl).2.1
  next => rfl

theorem readExponent_of_endsNumber {rest : List Char} (hr : EndsNumber rest) : readExponent rest = some (none, rest) := by
  cases rest with
  | nil => rfl
  | cons c rest =>
    obtain ⟨-, -, he, hE⟩ := hr c rfl
    simp [readExponent, he, hE]

/-- **A number is read back**, if it has no more than 64 bits. -/
theorem readNumber_int {i : ℤ} (hi : InRange i) {rest : List Char} (hr : EndsNumber rest) :
    readNumber ((toString i).toList ++ rest) = some (.int i, rest) := by
  obtain ⟨hlow, hhigh⟩ := hi
  -- the digits are the same for both signs; only the range differs
  cases i with
  | ofNat n =>
    have htext : (toString (Int.ofNat n)).toList = Nat.toDigits 10 n := Nat.toList_repr
    have hsign : ∀ x, Nat.toDigits 10 n ++ rest ≠ '-' :: x := by
      intro x h
      obtain ⟨c, cs, hcs⟩ := List.exists_cons_of_ne_nil (Nat.toDigits_ne_nil (n := n) (b := 10))
      rw [hcs, List.cons_append, List.cons.injEq] at h
      have hdigit := Nat.isDigit_of_mem_toDigits (b := 10) (n := n) (by decide) (by decide) (hcs ▸ List.mem_cons_self)
      rw [h.1] at hdigit
      exact absurd hdigit (by decide)
    have hbits : n < Nat.pow 2 64 := by
      show n < 2 ^ 64
      have : (n : ℤ) < 2 ^ 64 := hhigh
      omega
    rw [htext]
    simp only [readNumber, readDigits_toDigits n hr, readFraction_of_endsNumber hr, readExponent_of_endsNumber hr,
      if_neg (no_leading_zero n), bind, Option.bind, pure]
    simp [wholeOf, digitsValue_toDigits, hbits]
  | negSucc n =>
    have htext : (toString (Int.negSucc n)).toList = '-' :: Nat.toDigits 10 (n + 1) := by
      rw [negSucc_toList, Nat.toList_repr]
    have hbits : n + 1 ≤ Nat.pow 2 63 := by
      show n + 1 ≤ 2 ^ 63
      have : -2 ^ 63 ≤ Int.negSucc n := hlow
      omega
    rw [htext]
    simp only [readNumber, List.cons_append, readDigits_toDigits (n + 1) hr, readFraction_of_endsNumber hr,
      readExponent_of_endsNumber hr, if_neg (no_leading_zero (n + 1)), bind, Option.bind, pure]
    simp [wholeOf, digitsValue_toDigits, hbits]
    omega

/-! ## Values -/

/-- a value does not begin with a space, nor with what closes an array -/
theorem head_chars_ne (j : Json) :
    ∃ c cs, j.chars = c :: cs ∧ isSpace c = false ∧ c ≠ ']' := by
  obtain ⟨c, cs, hcs, hc⟩ := head_chars j
  have hall : [' ', '\n', '\t', '\r', ']'].all (fun c => openingOf c != j.opening) = true := by
    rcases j with _ | (_ | _) | _ | _ | _ | _ <;> rfl
  have hopening : ∀ c ∈ [' ', '\n', '\t', '\r', ']'], openingOf c ≠ j.opening :=
    fun c hc => bne_iff_ne.1 (List.all_eq_true.1 hall c hc)
  refine ⟨c, cs, hcs, ?_, ?_⟩
  · by_contra hspace
    refine hopening c ?_ hc
    simp only [isSpace, Bool.not_eq_false, Bool.or_eq_true, beq_iff_eq] at hspace
    simp only [List.mem_cons, List.not_mem_nil, or_false]
    tauto
  · rintro rfl
    exact hopening ']' (by simp) hc

theorem length_chars_pos (j : Json) : 0 < j.chars.length := by
  obtain ⟨c, cs, hcs, -⟩ := head_chars j
  simp [hcs]

theorem skipSpaces_cons {c : Char} (h : isSpace c = false) (cs : List Char) : skipSpaces (c :: cs) = c :: cs := by
  simp [skipSpaces, h]

theorem skipSpaces_chars (j : Json) (rest : List Char) : skipSpaces (j.chars ++ rest) = j.chars ++ rest := by
  obtain ⟨c, cs, hcs, hspace, -⟩ := head_chars_ne j
  rw [hcs, List.cons_append, skipSpaces_cons hspace]

/-- a text that begins like a number is read as one -/
theorem readValue_number {c : Char} {cs rest : List Char} {n : Numeral} (hc : isNumeral c = true)
    (h : readNumber (c :: cs) = some (n, rest)) (fuel level : ℕ) :
    readValue (fuel + 1) level (c :: cs) = (number n, some rest) := by
  have hne : ∀ d, isNumeral d = false → c ≠ d := by
    rintro d hd rfl
    rw [hc] at hd
    cases hd
  have hspace : isSpace c = false := by
    simp only [isSpace, Bool.or_eq_false_iff, beq_eq_false_iff_ne]
    exact ⟨⟨⟨hne ' ' (by decide), hne '\n' (by decide)⟩, hne '\t' (by decide)⟩, hne '\r' (by decide)⟩
  rw [readValue, skipSpaces_cons hspace]
  split
  next hx => cases hx
  next hx => exact absurd (List.cons.inj hx).1 (hne _ (by decide))
  next hx => exact absurd (List.cons.inj hx).1 (hne _ (by decide))
  next hx => exact absurd (List.cons.inj hx).1 (hne _ (by decide))
  next hx => exact absurd (List.cons.inj hx).1 (hne _ (by decide))
  next hx => exact absurd (List.cons.inj hx).1 (hne _ (by decide))
  next hx => exact absurd (List.cons.inj hx).1 (hne _ (by decide))
  next => rw [h]

theorem atLevel_of_le {level : ℕ} (h : level ≤ maxDepth) (r : Reading) : atLevel level r = r := if_pos h

/-- the items of an array from its first: that is no closing bracket -/
theorem readItems_value (fuel level : ℕ) (first : Bool) (j : Json) (rest : List Char) :
    readItems (fuel + 1) level first (j.chars ++ rest) =
      match readValue fuel level (j.chars ++ rest) with
      | (r, none) => (.cons r .broken, none)
      | (r, some rest) =>
        match skipSpaces rest with
        | ',' :: rest => (.cons r (readItems fuel level false rest).1, (readItems fuel level false rest).2)
        | ']' :: rest => (.cons r .closed, some rest)
        | _ => (.cons r .broken, none) := by
  rw [readItems, skipSpaces_chars]
  split
  next hx =>
    obtain ⟨c, cs, hcs, -, hne⟩ := head_chars_ne j
    rw [hcs, List.cons_append] at hx
    exact absurd (List.cons.inj hx).1 hne
  next => rfl

theorem readItems_nil {fuel : ℕ} (h : 0 < fuel) {level : ℕ} (rest : List Char) :
    readItems fuel level true ((array []).chars.tail ++ rest) = (ofItems [], some rest) := by
  obtain ⟨fuel, rfl⟩ := Nat.exists_eq_add_of_lt h
  rfl

theorem readMembers_nil {fuel : ℕ} (h : 0 < fuel) {level : ℕ} (rest : List Char) :
    readMembers fuel level true ((object []).chars.tail ++ rest) = (ofMembers [], some rest) := by
  obtain ⟨fuel, rfl⟩ := Nat.exists_eq_add_of_lt h
  rfl

mutual

/-- **A value that was written is read back**, with the text after it left over. -/
theorem readValue_chars (fuel : ℕ) (j : Json) {n level : ℕ} {rest : List Char} (hj : Fits n j)
    (hlevel : level + n ≤ maxDepth) (hr : EndsNumber rest) (hfuel : 2 * j.chars.length ≤ fuel) :
    readValue fuel level (j.chars ++ rest) = (ofJson j, some rest) := by
  cases fuel with
  | zero => exact absurd (length_chars_pos j) (by omega)
  | succ fuel =>
    cases j with
    | null => rfl
    | bool b => cases b <;> rfl
    | int i =>
      obtain ⟨c, cs, hcs, -⟩ := head_chars (int i)
      have hread := readNumber_int (fits_int.1 hj) hr
      have hc : isNumeral c = true := isNumeral_of_mem_toString (hcs ▸ List.mem_cons_self)
      rw [chars] at hcs
      rw [hcs, List.cons_append] at hread
      rw [chars, hcs, List.cons_append, readValue_number hc hread, ofJson]
    | string s =>
      obtain ⟨htext, hread⟩ := readText_stringChars s rest
      rw [chars, htext, readValue, skipSpaces_cons (by decide)]
      simp only [hread, ofJson]
    | array items =>
      obtain ⟨n, rfl⟩ := hj.exists_succ_of_array
      have hopen : isSpace '[' = false := by decide
      have hitems : readItems fuel (level + 1) true ((array items).chars.tail ++ rest) = (ofItems items, some rest) := by
        cases items with
        | nil => exact readItems_nil (by simp [chars] at hfuel; omega) rest
        | cons j js =>
          rw [chars, List.tail_cons, List.append_assoc]
          exact readItems_chars fuel j js true hj (by omega) (by simp [chars] at hfuel; omega)
      have htext : (array items).chars = '[' :: (array items).chars.tail := by cases items <;> rw [chars, List.tail_cons]
      rw [htext, List.cons_append, readValue, skipSpaces_cons hopen]
      simp only [hitems, ofJson]
      rw [atLevel_of_le (by omega)]
    | object members =>
      obtain ⟨n, rfl⟩ := hj.exists_succ_of_object
      have hopen : isSpace '\x7b' = false := by decide
      have hmembers : readMembers fuel (level + 1) true ((object members).chars.tail ++ rest) =
          (ofMembers members, some rest) := by
        rcases members with _ | ⟨⟨k, j⟩, ms⟩
        · exact readMembers_nil (by simp [chars] at hfuel; omega) rest
        · rw [chars, List.tail_cons, List.append_assoc, List.cons_append, List.append_assoc]
          exact readMembers_chars fuel k j ms true hj (by omega) (by simp [chars] at hfuel; omega)
      have htext : (object members).chars = '\x7b' :: (object members).chars.tail := by
        rcases members with _ | ⟨⟨k, j⟩, ms⟩ <;> rw [chars, List.tail_cons]
      rw [htext, List.cons_append, readValue, skipSpaces_cons hopen]
      simp only [hmembers, ofJson]
      rw [atLevel_of_le (by omega)]

/-- and so are items with their closing bracket -/
theorem readItems_chars (fuel : ℕ) (j : Json) (js : List Json) (first : Bool) {n level : ℕ} {rest : List Char}
    (hj : ∀ x ∈ j :: js, Fits n x) (hlevel : level + n ≤ maxDepth)
    (hfuel : 2 * (j.chars.length + (itemsChars js).length) < fuel) :
    readItems fuel level first (j.chars ++ (itemsChars js ++ rest)) = (ofItems (j :: js), some rest) := by
  cases fuel with
  | zero => exact absurd hfuel (Nat.not_lt_zero _)
  | succ fuel =>
    obtain ⟨hhead, htail⟩ := List.forall_mem_cons.1 hj
    have hvalue := readValue_chars fuel j hhead hlevel (endsNumber_itemsChars js rest) (by omega)
    rw [readItems_value, hvalue]
    cases js with
    | nil => simp [itemsChars, skipSpaces_cons (show isSpace ']' = false by decide), ofItems]
    | cons j' js =>
      have hrest : readItems fuel level false (j'.chars ++ (itemsChars js ++ rest)) =
          (ofItems (j' :: js), some rest) :=
        readItems_chars fuel j' js false htail hlevel (by simp [itemsChars] at hfuel; omega)
      simp only [itemsChars, List.cons_append, List.append_assoc, skipSpaces_cons (show isSpace ',' = false by decide),
        hrest]
      simp only [ofItems]

/-- and members with their closing brace -/
theorem readMembers_chars (fuel : ℕ) (k : String) (j : Json) (ms : List (String × Json)) (first : Bool) {n level : ℕ}
    {rest : List Char} (hj : ∀ m ∈ (k, j) :: ms, Fits n m.2) (hlevel : level + n ≤ maxDepth)
    (hfuel : 2 * (j.chars.length + (membersChars ms).length) < fuel) :
    readMembers fuel level first (stringChars k ++ ':' :: (j.chars ++ (membersChars ms ++ rest))) =
      (ofMembers ((k, j) :: ms), some rest) := by
  cases fuel with
  | zero => exact absurd hfuel (Nat.not_lt_zero _)
  | succ fuel =>
    obtain ⟨hhead, htail⟩ := List.forall_mem_cons.1 hj
    have hvalue := readValue_chars fuel j hhead hlevel (endsNumber_membersChars ms rest) (by omega)
    obtain ⟨htext, hread⟩ := readText_stringChars k (':' :: (j.chars ++ (membersChars ms ++ rest)))
    rw [htext, readMembers, skipSpaces_cons (by decide)]
    simp only [hread, skipSpaces_cons (show isSpace ':' = false by decide), hvalue]
    rcases ms with _ | ⟨⟨k', j'⟩, ms⟩
    · simp [membersChars, skipSpaces_cons (show isSpace '\x7d' = false by decide), ofMembers]
    · have hrest : readMembers fuel level false (stringChars k' ++ ':' :: (j'.chars ++ (membersChars ms ++ rest))) =
          (ofMembers ((k', j') :: ms), some rest) :=
        readMembers_chars fuel k' j' ms false htail hlevel (by simp [membersChars] at hfuel; omega)
      simp only [membersChars, List.cons_append, List.append_assoc, skipSpaces_cons (show isSpace ',' = false by decide),
        hrest]
      simp only [ofMembers]

end

/-! ## Whole texts -/

/-- the compact form of a value is read in full -/
theorem ofText_compact {n : ℕ} {j : Json} (hj : Fits n j) (hn : n ≤ maxDepth) : ofText j.compact = (ofJson j, true) := by
  have hread : readValue (2 * j.chars.length + 1) 0 (j.chars ++ []) = (ofJson j, some []) :=
    readValue_chars (2 * j.chars.length + 1) j hj (by omega) endsNumber_nil (by omega)
  rw [List.append_nil] at hread
  simp [ofText, compact, hread, skipSpaces]

end Json

/-- **Decoding what was written** is decoding the value that was written. -/
theorem Wire.decode_compact {α : Type} (d : Wire.Decoder α) {n : ℕ} {j : Json} (hj : Json.Fits n j)
    (hn : n ≤ Reading.maxDepth) : Wire.decode d j.compact = d .text (Reading.ofJson j) := by
  simp only [Wire.decode, Json.ofText_compact hj hn, if_true]
  cases d .text (Reading.ofJson j) <;> rfl

end MixinPlanner
