/-
The compact form of a JSON value determines the value.

A written text ends at its first bare quote, so it can be read off the front of whatever follows it (`readChars_escaped`).
Every value can be split off in the same way, except that a number goes on as long as digits follow; so what comes after
a value must not go on with one (`EndsValue`), and no separator does.
- `chars_append_inj`: two values with their continuations are one text only if both parts are the same;
- `compact_inj`: two values with one compact form are the same.
-/
import Mathlib.Tactic
import MixinPlanner.Json.Printer
import MixinPlanner.Json.Reader

namespace MixinPlanner.Json

open MixinPlanner.Reading

/-! ## Texts -/

theorem hexValue_hexDigit (n : ℕ) : Text.hexValue (hexDigit n) = some (n % 16) := by
  have hdigits : ∀ m < 16, Text.hexValue (Nat.digitChar m) = some m := by decide
  exact hdigits _ (Nat.mod_lt _ (by decide))

/-- the escape by number of a control character is read as that character -/
theorem readUnit_control {c : Char} (h : c.toNat < 0x20) (rest : List Char) :
    readUnit ('0' :: '0' :: hexDigit (c.toNat / 16) :: hexDigit c.toNat :: rest) = some (some c, rest) := by
  have hzero : Text.hexValue '0' = some 0 := by decide
  have hvalue : c.toNat / 16 % 16 * 16 + c.toNat % 16 = c.toNat := by omega
  have hunit : hexUnit ('0' :: '0' :: hexDigit (c.toNat / 16) :: hexDigit c.toNat :: rest) = some (c.toNat, rest) := by
    simp [hexUnit, hzero, hexValue_hexDigit, hvalue]
  have hhigh : isHighUnit c.toNat = false := by simp [isHighUnit]; omega
  have hlow : isLowUnit c.toNat = false := by simp [isLowUnit]; omega
  simp [readUnit, hunit, hhigh, hlow]

/-- a written character is read before what follows it -/
theorem readChars_escapeChar {fuel : ℕ} {cs rest rest' : List Char} (c : Char)
    (h : readChars fuel rest = some (some cs, rest')) :
    readChars (fuel + 1) (escapeChar c ++ rest) = some (some (c :: cs), rest') := by
  unfold escapeChar
  -- the escapes by a letter, then those by number, then the characters that stand for themselves
  split_ifs with hquote hback hb ht hn hf hr hcontrol
  · simp [readChars, escaped, hquote, h]
  · simp [readChars, escaped, hback, h]
  · simp [readChars, escaped, hb, h]
  · simp [readChars, escaped, ht, h]
  · simp [readChars, escaped, hn, h]
  · simp [readChars, escaped, hf, h]
  · simp [readChars, escaped, hr, h]
  · simp [readChars, readUnit_control hcontrol, h]
  · simp [readChars, hquote, hback, hcontrol, h]

/-- a written text is read back up to its closing quote -/
theorem readChars_escaped (cs rest : List Char) :
    ∀ fuel, cs.length < fuel → readChars fuel (cs.flatMap escapeChar ++ '"' :: rest) = some (some cs, rest) := by
  induction cs with
  | nil =>
    intro fuel hfuel
    obtain ⟨fuel, rfl⟩ := Nat.exists_eq_add_of_lt hfuel
    simp [readChars]
  | cons c cs ih =>
    intro fuel hfuel
    obtain ⟨fuel, rfl⟩ : ∃ n, fuel = n + 1 := Nat.exists_eq_succ_of_ne_zero (by omega)
    rw [List.flatMap_cons, List.append_assoc]
    exact readChars_escapeChar c (ih fuel (by simpa using hfuel))

theorem length_le_escaped (cs : List Char) : cs.length ≤ (cs.flatMap escapeChar).length := by
  induction cs with
  | nil => simp
  | cons c cs ih =>
    have hc : 1 ≤ (escapeChar c).length := by unfold escapeChar; split_ifs <;> simp
    simp only [List.flatMap_cons, List.length_append, List.length_cons]
    omega

/-- a text between quotes is read back, whatever follows -/
theorem readText_stringChars (s : String) (rest : List Char) :
    stringChars s ++ rest = '"' :: (s.toList.flatMap escapeChar ++ '"' :: rest) ∧
      readText (s.toList.flatMap escapeChar ++ '"' :: rest) = some (some s, rest) := by
  have hlen := length_le_escaped s.toList
  refine ⟨by simp [stringChars], ?_⟩
  unfold readText
  rw [readChars_escaped s.toList rest _ (by rw [List.length_append]; omega)]
  simp

/-- a text between quotes can be split off in one way only, as reading finds it again -/
theorem stringChars_append_inj {s s' : String} {rest rest' : List Char}
    (h : stringChars s ++ rest = stringChars s' ++ rest') : s = s' ∧ rest = rest' := by
  obtain ⟨hs, hread⟩ := readText_stringChars s rest
  obtain ⟨hs', hread'⟩ := readText_stringChars s' rest'
  have htext := (hs.symm.trans h).trans hs'
  rw [List.cons.injEq] at htext
  rw [htext.2, hread'] at hread
  simpa [eq_comm] using hread

/-! ## Numbers -/

/-- a character of a written number -/
def isNumeral (c : Char) : Bool := c == '-' || c.isDigit

/-- no value that ends before a text goes on in it -/
def EndsValue (rest : List Char) : Prop := ∀ c ∈ rest.head?, isNumeral c = false

theorem endsValue_cons {c : Char} (h : isNumeral c = false) (cs : List Char) : EndsValue (c :: cs) := by
  simpa [EndsValue] using h

theorem isDigit_of_mem_repr {n : ℕ} {c : Char} (h : c ∈ n.repr.toList) : c.isDigit = true := by
  rw [Nat.toList_repr] at h
  exact Nat.isDigit_of_mem_toDigits (by decide) (by decide) h

theorem negSucc_toList (n : ℕ) : (toString (Int.negSucc n)).toList = '-' :: (n + 1).repr.toList := by
  simp [toString, Int.repr]

theorem isNumeral_of_mem_toString {i : ℤ} {c : Char} (h : c ∈ (toString i).toList) : isNumeral c = true := by
  unfold isNumeral
  cases i with
  | ofNat n => simp [isDigit_of_mem_repr (n := n) h]
  | negSucc n =>
    rw [negSucc_toList, List.mem_cons] at h
    rcases h with rfl | h
    · decide
    · simp [isDigit_of_mem_repr h]

theorem ofNat_ne_negSucc_toList (n m : ℕ) : n.repr.toList ≠ '-' :: m.repr.toList := by
  intro h
  have hminus : '-'.isDigit = true := isDigit_of_mem_repr (n := n) (h ▸ List.mem_cons_self)
  exact absurd hminus (by decide)

theorem repr_toList_inj {n n' : ℕ} (h : n.repr.toList = n'.repr.toList) : n = n' := by
  rw [Nat.toList_repr, Nat.toList_repr] at h
  simpa using congrArg (fun ds => Nat.ofDigitChars 10 ds 0) h

theorem toString_int_inj {i i' : ℤ} (h : (toString i).toList = (toString i').toList) : i = i' := by
  match i, i' with
  | .ofNat n, .ofNat n' => exact congrArg Int.ofNat (repr_toList_inj h)
  | .ofNat n, .negSucc m => exact absurd ((negSucc_toList m) ▸ h) (ofNat_ne_negSucc_toList n (m + 1))
  | .negSucc m, .ofNat n => exact absurd ((negSucc_toList m) ▸ h).symm (ofNat_ne_negSucc_toList n (m + 1))
  | .negSucc m, .negSucc m' =>
    rw [negSucc_toList, negSucc_toList, List.cons.injEq] at h
    rw [Nat.succ.inj (repr_toList_inj h.2)]

/-- the number at the front of a text is all that could belong to one -/
theorem takeWhile_int {i : ℤ} {rest : List Char} (hr : EndsValue rest) :
    ((toString i).toList ++ rest).takeWhile isNumeral = (toString i).toList := by
  rw [List.takeWhile_append_of_pos fun c hc => isNumeral_of_mem_toString hc]
  cases rest with
  | nil => simp
  | cons c cs => simp [hr c rfl]

theorem int_append_inj {i i' : ℤ} {rest rest' : List Char} (hr : EndsValue rest) (hr' : EndsValue rest')
    (h : (toString i).toList ++ rest = (toString i').toList ++ rest') : i = i' ∧ rest = rest' := by
  have htext : (toString i).toList = (toString i').toList := by
    rw [← takeWhile_int hr, h, takeWhile_int hr']
  refine ⟨toString_int_inj htext, ?_⟩
  rw [htext] at h
  exact List.append_cancel_left h

/-! ## Values -/

/-- the first character of a written value, `-` for that of any number -/
def opening : Json → Char
  | null => 'n'
  | bool true => 't'
  | bool false => 'f'
  | int _ => '-'
  | string _ => '"'
  | array _ => '['
  | object _ => '\x7b'

/-- a character, `-` for all that numbers begin with -/
def openingOf (c : Char) : Char := if isNumeral c then '-' else c

theorem head_chars (j : Json) : ∃ c cs, j.chars = c :: cs ∧ openingOf c = j.opening := by
  cases j with
  | null => exact ⟨_, _, rfl, by decide⟩
  | bool b => cases b <;> exact ⟨_, _, rfl, by decide⟩
  | int i =>
    have hne : (toString i).toList ≠ [] := by
      cases i with
      | ofNat n => exact fun h => Nat.toDigits_ne_nil (Nat.toList_repr.symm.trans h)
      | negSucc n => rw [negSucc_toList]; exact List.cons_ne_nil _ _
    obtain ⟨c, cs, hcs⟩ := List.exists_cons_of_ne_nil hne
    have hc : isNumeral c = true := isNumeral_of_mem_toString (hcs ▸ List.mem_cons_self)
    exact ⟨c, cs, by rw [chars, hcs], by simp [openingOf, hc, opening]⟩
  | string s => exact ⟨_, _, by rw [chars, stringChars], rfl⟩
  | array items => cases items <;> exact ⟨_, _, by rw [chars], rfl⟩
  | object members => rcases members with _ | ⟨⟨k, j⟩, rest⟩ <;> exact ⟨_, _, by rw [chars], rfl⟩

theorem opening_eq {j j' : Json} {rest rest' : List Char} (h : j.chars ++ rest = j'.chars ++ rest') :
    j.opening = j'.opening := by
  obtain ⟨c, cs, hcs, hc⟩ := head_chars j
  obtain ⟨c', cs', hcs', hc'⟩ := head_chars j'
  rw [hcs, hcs', List.cons_append, List.cons_append, List.cons.injEq] at h
  rw [← hc, ← hc', h.1]

/-- values that begin alike are of one kind -/
theorem shape_of_opening (j j' : Json) (h : j.opening = j'.opening) :
    match j with
    | null => j' = null
    | bool b => j' = bool b
    | int _ => ∃ i, j' = int i
    | string _ => ∃ s, j' = string s
    | array _ => ∃ js, j' = array js
    | object _ => ∃ ms, j' = object ms := by
  rcases j with _ | (_ | _) | _ | _ | _ | _ <;> rcases j' with _ | (_ | _) | _ | _ | _ | _ <;>
    simp [opening] at h ⊢

/-- a value does not begin with what closes an array -/
theorem chars_ne_close (j : Json) (rest rest' : List Char) : j.chars ++ rest ≠ ']' :: rest' := by
  obtain ⟨c, cs, hcs, hc⟩ := head_chars j
  rw [hcs, List.cons_append]
  intro h
  obtain rfl : c = ']' := (List.cons.inj h).1
  have hclose : openingOf ']' = ']' := by decide
  rw [hclose] at hc
  rcases j with _ | (_ | _) | _ | _ | _ | _ <;> simp [opening] at hc

theorem endsValue_itemsChars (js : List Json) (rest : List Char) : EndsValue (itemsChars js ++ rest) := by
  cases js <;> exact endsValue_cons (by decide) _

theorem endsValue_membersChars (ms : List (String × Json)) (rest : List Char) :
    EndsValue (membersChars ms ++ rest) := by
  cases ms <;> exact endsValue_cons (by decide) _

mutual

/-- **A value can be split off the front of a text in one way only.** What comes after it must not go on with a number;
after an item or a member that is so by itself. -/
theorem chars_append_inj (j : Json) {j' : Json} {rest rest' : List Char} (hr : EndsValue rest)
    (hr' : EndsValue rest') (h : j.chars ++ rest = j'.chars ++ rest') : j = j' ∧ rest = rest' := by
  have hshape := shape_of_opening j j' (opening_eq h)
  match j with
  | null =>
    have hnull : j' = null := hshape
    subst hnull
    exact ⟨rfl, List.append_cancel_left h⟩
  | bool b =>
    have hbool : j' = bool b := hshape
    subst hbool
    exact ⟨rfl, List.append_cancel_left h⟩
  | int i =>
    obtain ⟨i', rfl⟩ := hshape
    obtain ⟨rfl, hrest⟩ := int_append_inj hr hr' h
    exact ⟨rfl, hrest⟩
  | string s =>
    obtain ⟨s', rfl⟩ := hshape
    obtain ⟨rfl, hrest⟩ := stringChars_append_inj h
    exact ⟨rfl, hrest⟩
  | array js =>
    obtain ⟨js', rfl⟩ := hshape
    match js, js' with
    | [], [] => exact ⟨rfl, List.append_cancel_left h⟩
    | [], j' :: js' =>
      simp only [chars, List.cons_append, List.nil_append, List.append_assoc, List.cons.injEq, true_and] at h
      exact absurd h.symm (chars_ne_close j' _ _)
    | j :: js, [] =>
      simp only [chars, List.cons_append, List.nil_append, List.append_assoc, List.cons.injEq, true_and] at h
      exact absurd h (chars_ne_close j _ _)
    | j :: js, j' :: js' =>
      simp only [chars, List.cons_append, List.append_assoc, List.cons.injEq, true_and] at h
      obtain ⟨rfl, hitems⟩ := chars_append_inj j (endsValue_itemsChars js rest) (endsValue_itemsChars js' rest') h
      obtain ⟨rfl, hrest⟩ := itemsChars_append_inj js hitems
      exact ⟨rfl, hrest⟩
  | object ms =>
    obtain ⟨ms', rfl⟩ := hshape
    match ms, ms' with
    | [], [] => exact ⟨rfl, List.append_cancel_left h⟩
    | [], _ :: _ => simp [chars, stringChars] at h
    | _ :: _, [] => simp [chars, stringChars] at h
    | (k, j) :: ms, (k', j') :: ms' =>
      simp only [chars, List.cons_append, List.append_assoc, List.cons.injEq, true_and] at h
      obtain ⟨rfl, hvalue⟩ := stringChars_append_inj h
      obtain ⟨rfl, hmembers⟩ := chars_append_inj j (endsValue_membersChars ms rest)
        (endsValue_membersChars ms' rest') (List.cons.inj hvalue).2
      obtain ⟨rfl, hrest⟩ := membersChars_append_inj ms hmembers
      exact ⟨rfl, hrest⟩

/-- and so can items with their closing bracket -/
theorem itemsChars_append_inj (js : List Json) {js' : List Json} {rest rest' : List Char}
    (h : itemsChars js ++ rest = itemsChars js' ++ rest') : js = js' ∧ rest = rest' := by
  match js, js' with
  | [], [] => exact ⟨rfl, List.append_cancel_left h⟩
  | [], j' :: js' => simp [itemsChars] at h
  | j :: js, [] => simp [itemsChars] at h
  | j :: js, j' :: js' =>
    simp only [itemsChars, List.cons_append, List.append_assoc, List.cons.injEq, true_and] at h
    obtain ⟨rfl, hitems⟩ := chars_append_inj j (endsValue_itemsChars js rest) (endsValue_itemsChars js' rest') h
    obtain ⟨rfl, hrest⟩ := itemsChars_append_inj js hitems
    exact ⟨rfl, hrest⟩

/-- and members with their closing brace -/
theorem membersChars_append_inj (ms : List (String × Json)) {ms' : List (String × Json)} {rest rest' : List Char}
    (h : membersChars ms ++ rest = membersChars ms' ++ rest') : ms = ms' ∧ rest = rest' := by
  match ms, ms' with
  | [], [] => exact ⟨rfl, List.append_cancel_left h⟩
  | [], m' :: ms' => simp [membersChars] at h
  | m :: ms, [] => simp [membersChars] at h
  | (k, j) :: ms, (k', j') :: ms' =>
    simp only [membersChars, List.cons_append, List.append_assoc, List.cons.injEq, true_and] at h
    obtain ⟨rfl, hvalue⟩ := stringChars_append_inj h
    obtain ⟨rfl, hmembers⟩ := chars_append_inj j (endsValue_membersChars ms rest)
      (endsValue_membersChars ms' rest') (List.cons.inj hvalue).2
    obtain ⟨rfl, hrest⟩ := membersChars_append_inj ms hmembers
    exact ⟨rfl, hrest⟩

end

/-- values with one compact form are the same -/
theorem compact_inj {j j' : Json} (h : j.compact = j'.compact) : j = j' := by
  have hchars : j.chars = j'.chars := String.ofList_inj.1 h
  have hend : EndsValue [] := fun c hc => by simp at hc
  exact (chars_append_inj j hend hend (by rw [hchars])).1

end MixinPlanner.Json
