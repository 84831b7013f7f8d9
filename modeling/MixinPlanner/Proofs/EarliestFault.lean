/-
Where a text leaves the grammar of written types.

A text that is not read is faulted as early as can be. `Viable` texts are those that can be continued to one that is read. An
unexpected character is the first that no continuation can have where it stands: the text before it is viable, and with it
the text no longer is. A text that ended too early is viable as a whole. A misspelled run is reported whole, and no text that
goes on from it is read.

`Leaves` says this of one reader: what stands before the fault goes on to a text that the reader is for, and nothing that
begins with it and the fault is taken. A reader passes on the faults of those that it calls (`Leaves.after`). What has been
read up to a character does not depend on what follows the character (`readType_upTo`, `readArg_upTo`), so a fault may also
be what a caller finds after a part that was read.
- `readName_cases`, `readType_cases`: the ends of one step of a reader;
- `readType_leaves`, `readArgs_leaves`, `readArg_leaves`: every fault of a reader is one by which its text leaves;
- `parse_cases`: the ends of a whole text;
- `parse_error_earliest`: what that means for each kind of error.
-/
import MixinPlanner.Proofs.TypeText

namespace MixinPlanner

namespace TypeRef

open Text
open MixinPlanner.TypeRef.Parser

/-! ## Leaving the texts of a kind -/

/-- a run of name characters that goes on neither before nor behind -/
structure MaximalRun (before run after : List Char) : Prop where
  ne_nil : run ≠ []
  all : ∀ c ∈ run, isNameRun c = true
  left : ∀ c ∈ before.getLast?, isNameRun c = false
  right : ∀ c ∈ after.head?, isNameRun c = false

/-- a text leaves the texts of a kind by a fault: what stands before the fault goes on to a text of the kind, and nothing
that begins with it and the fault is taken -/
inductive Leaves (OfKind Taken : List Char → Prop) (cs : List Char) : Stop → Prop
  | ended (h : ∃ more, OfKind (cs ++ more)) : Leaves OfKind Taken cs .ended
  | before {front rest : List Char} {c : Char} (hcs : cs = front ++ c :: rest) (h : ∃ more, OfKind (front ++ more))
      (hfault : ∀ more, ¬ Taken (front ++ c :: more)) : Leaves OfKind Taken cs (.before (c :: rest) c)
  | badName {front run rest : List Char} (hcs : cs = front ++ (run ++ rest)) (hrun : MaximalRun front run rest)
      (hfault : ∀ more, ¬ Taken (front ++ (run ++ more))) : Leaves OfKind Taken cs (.badName (String.ofList run))

theorem MaximalRun.after {front before run rest : List Char} (h : MaximalRun before run rest)
    (hfront : ∀ c ∈ front.getLast?, isNameRun c = false) : MaximalRun (front ++ before) run rest := by
  refine ⟨h.ne_nil, h.all, fun c hc => ?_, h.right⟩
  rw [List.getLast?_append] at hc
  cases hlast : before.getLast? with
  | none => rw [hlast] at hc; exact hfront c hc
  | some d => rw [hlast] at hc; exact h.left c (hlast ▸ hc)

/-- a fault in what follows a front is a fault of the whole, if nothing else can follow it there -/
theorem Leaves.after {OfPart TakenPart OfWhole Taken : List Char → Prop} {cs : List Char} {stop : Stop}
    (h : Leaves OfPart TakenPart cs stop) (front : List Char) (hfront : ∀ c ∈ front.getLast?, isNameRun c = false)
    (hwhole : ∀ text, OfPart text → ∃ more, OfWhole (front ++ (text ++ more)))
    (htaken : ∀ text, text.head? = cs.head? → Taken (front ++ text) → TakenPart text) :
    Leaves OfWhole Taken (front ++ cs) stop := by
  have hcompletes : ∀ before, (∃ more, OfPart (before ++ more)) → ∃ more, OfWhole (front ++ before ++ more) := by
    intro before ⟨more, hmore⟩
    obtain ⟨more', hmore'⟩ := hwhole _ hmore
    exact ⟨more ++ more', by simpa using hmore'⟩
  cases h with
  | ended h => exact .ended (hcompletes _ h)
  | @before before rest c hcs h hfault =>
    refine .before (by rw [hcs, List.append_assoc]) (hcompletes _ h) fun more hmore => hfault more (htaken _ ?_ ?_)
    · rw [hcs, List.head?_append, List.head?_append, List.head?_cons, List.head?_cons]
    · rwa [List.append_assoc] at hmore
  | @badName before run rest hcs hrun hfault =>
    refine .badName (by rw [hcs, List.append_assoc]) (hrun.after hfront) fun more hmore => hfault more (htaken _ ?_ ?_)
    · obtain ⟨c, run, rfl⟩ := List.exists_cons_of_ne_nil hrun.ne_nil
      simp [hcs, List.head?_append]
    · rwa [List.append_assoc] at hmore

/-! ## Names -/

/-- a name is read at the front of a text -/
def TakesName (cs : List Char) : Prop := ∃ r, readName cs = .ok r

theorem endsName_dropWhile (cs : List Char) : EndsName (cs.dropWhile isNameRun) := by
  intro c hc
  have hhead := List.head?_dropWhile_not isNameRun cs
  rw [hc] at hhead
  simpa using hhead

theorem isName_of_append {run more : List Char} (hrun : run ≠ []) (h : isName (String.ofList (run ++ more)) = true) :
    isName (String.ofList run) = true := by
  obtain ⟨c, run, rfl⟩ := List.exists_cons_of_ne_nil hrun
  simp only [isName, String.toList_ofList, List.cons_append, List.all_append, Bool.and_eq_true] at h ⊢
  exact ⟨h.1, h.2.1⟩

/-- **The ends of reading a name.** It is read up to where its run ends; or no run begins where it should, or the run is
misspelled. -/
theorem readName_cases (cs : List Char) :
    (∃ n rest, isName n = true ∧ EndsName rest ∧ cs = n.toList ++ rest ∧ readName cs = .ok (n, rest)) ∨
      ∃ stop, Leaves (fun text => isName (String.ofList text) = true) TakesName cs stop ∧
        readName cs = .error stop := by
  have hviable : ∃ more, isName (String.ofList ([] ++ more)) = true := ⟨['A'], by decide⟩
  cases hrun : cs.takeWhile isNameRun with
  | nil =>
    refine .inr ⟨stopAt cs, ?_, by rw [readName, hrun]⟩
    cases cs with
    | nil => exact .ended hviable
    | cons c rest =>
      have hc : ¬ isNameRun c = true := fun hc => by simp [hc] at hrun
      refine .before rfl hviable fun more ⟨r, hr⟩ => ?_
      have hnone : ([] ++ c :: more).takeWhile isNameRun = [] := by simp [hc]
      rw [readName, hnone] at hr
      cases hr
  | cons c run =>
    have hcs : cs = (c :: run) ++ cs.dropWhile isNameRun := by rw [← hrun, List.takeWhile_append_dropWhile]
    have hall : ∀ d ∈ c :: run, isNameRun d = true := fun d hd => List.mem_takeWhile_imp (hrun ▸ hd)
    by_cases hn : isName (String.ofList (c :: run)) = true
    · refine .inl ⟨String.ofList (c :: run), cs.dropWhile isNameRun, hn, endsName_dropWhile cs, ?_, ?_⟩
      · rw [String.toList_ofList, ← hcs]
      · rw [readName, hrun]
        exact if_pos hn
    · refine .inr ⟨.badName (String.ofList (c :: run)), ?_, ?_⟩
      · have hmaximal : MaximalRun [] (c :: run) (cs.dropWhile isNameRun) :=
          ⟨List.cons_ne_nil c run, hall, by simp, endsName_dropWhile cs⟩
        refine .badName hcs hmaximal fun more ⟨⟨n, rest⟩, hr⟩ => hn ?_
        -- whatever follows, the run that is read begins with the misspelled one
        obtain ⟨more', hmore'⟩ : ∃ more', ([] ++ ((c :: run) ++ more)).takeWhile isNameRun = (c :: run) ++ more' :=
          ⟨more.takeWhile isNameRun, List.takeWhile_append_of_pos hall⟩
        rw [readName, hmore'] at hr
        simp only [List.cons_append] at hr
        split_ifs at hr with hlonger
        exact isName_of_append (List.cons_ne_nil c run) hlonger
      · rw [readName, hrun]
        exact if_neg hn

/-! ## Types and arguments -/

/-- a text that an unmarked argument may begin: it begins with neither a blank nor a question mark -/
def Unmarked (cs : List Char) : Prop := ∀ c ∈ cs.head?, isBlank c = false ∧ c ≠ '?'

theorem Unmarked.skipBlanks_eq {cs : List Char} (h : Unmarked cs) : skipBlanks cs = cs := by
  cases cs with
  | nil => rfl
  | cons c cs => exact skipBlanks_cons (h c rfl).1 cs

theorem TypeText.unmarked {t : TypeRef} {cs : List Char} (h : TypeText t cs) (rest : List Char) :
    Unmarked (cs ++ rest) := by
  obtain ⟨c, cs, rfl, hc⟩ := h.exists_cons
  intro d hd
  obtain rfl : c = d := by simpa using hd
  refine ⟨?_, ?_⟩
  · by_contra hb
    rw [not_isNameRun_of_isBlank (by simpa using hb)] at hc
    cases hc
  · rintro rfl
    exact absurd hc (by decide +kernel)

theorem skipBlanks_head {cs rest : List Char} {c : Char} (h : skipBlanks cs = c :: rest) : isBlank c = false := by
  have hhead := List.head?_dropWhile_not isBlank cs
  rw [show cs.dropWhile isBlank = c :: rest from h] at hhead
  simpa using hhead

/-- a question mark before an argument: the name of a parameter is read -/
theorem readArg_marked {bs : List Char} (hb : Blanks bs) (fuel : ℕ) (rest : List Char) :
    readArg fuel (bs ++ '?' :: rest) = readName rest >>= fun r => .ok (.param r.1, r.2) := by
  simp only [readArg, skipBlanks_append hb, skipBlanks_cons (show isBlank '?' = false by decide)]
  rfl

/-- no question mark before it: a type is read -/
theorem readArg_unmarked {bs text : List Char} (hb : Blanks bs) (h : Unmarked text) (fuel : ℕ) :
    readArg fuel (bs ++ text) = readType fuel text >>= fun r => .ok (.closed r.1, r.2) := by
  rw [readArg, skipBlanks_append hb, h.skipBlanks_eq]
  split
  next rest => exact absurd rfl (h '?' rfl).2
  next => rfl

/-- an argument has its question mark after its blanks, or it has none -/
theorem marked_or_unmarked (cs : List Char) :
    ∃ bs, Blanks bs ∧ ((∃ rest, cs = bs ++ '?' :: rest) ∨ ∃ text, cs = bs ++ text ∧ Unmarked text) := by
  obtain ⟨bs, hb, hcs⟩ := exists_blanks cs
  refine ⟨bs, hb, ?_⟩
  cases hskip : skipBlanks cs with
  | nil => exact .inr ⟨[], by rw [hcs, hskip], by simp [Unmarked]⟩
  | cons c rest =>
    rw [hskip] at hcs
    by_cases hc : c = '?'
    · exact .inl ⟨rest, hc ▸ hcs⟩
    · refine .inr ⟨c :: rest, hcs, fun d hd => ?_⟩
      obtain rfl : c = d := by simpa using hd
      exact ⟨skipBlanks_head hskip, hc⟩

/-- **The ends of reading a type.** Its name is at fault, or it has no arguments, or they are read next. -/
theorem readType_cases (fuel : ℕ) (cs : List Char) :
    (∃ stop, Leaves (fun text => isName (String.ofList text) = true) TakesName cs stop ∧
        readType (fuel + 1) cs = .error stop) ∨
      (∃ n rest, isName n = true ∧ EndsType rest ∧ cs = n.toList ++ rest ∧
        readType (fuel + 1) cs = .ok (⟨n, []⟩, skipBlanks rest)) ∨
      ∃ n bs inner, isName n = true ∧ Blanks bs ∧ cs = n.toList ++ (bs ++ '<' :: inner) ∧
        readType (fuel + 1) cs = readArgs fuel inner >>= fun r => .ok (⟨n, r.1⟩, r.2) := by
  rcases readName_cases cs with ⟨n, rest, hn, hends, rfl, -⟩ | ⟨stop, hleaves, hname⟩
  · by_cases hopen : ∃ inner, skipBlanks rest = '<' :: inner
    · obtain ⟨inner, hopen⟩ := hopen
      obtain ⟨bs, hb, hrest⟩ := exists_blanks rest
      rw [hopen] at hrest
      exact .inr (.inr ⟨n, bs, inner, hn, hb, by rw [hrest], by rw [hrest, readType_applied hn hb]⟩)
    · have hends : EndsType rest := ⟨hends, fun inner h => hopen ⟨inner, h⟩⟩
      exact .inr (.inl ⟨n, rest, hn, hends, rfl, readType_bare hn fuel hends⟩)
  · refine .inl ⟨stop, hleaves, ?_⟩
    rw [readType, hname]
    rfl

/-! ### What is read up to a character does not depend on what follows the character -/

theorem EndsName.congr {bs rest more : List Char} {c : Char} (h : EndsName (bs ++ c :: rest)) :
    EndsName (bs ++ c :: more) := by
  cases bs <;> exact h

theorem readType_upTo {fuel : ℕ} {cs rest after : List Char} {t : TypeRef} {c : Char}
    (h : readType fuel cs = .ok (t, rest)) (hc : skipBlanks rest = c :: after) :
    ∃ ds bs, TypeText t ds ∧ Blanks bs ∧ cs = ds ++ (bs ++ c :: after) ∧
      ∀ more fuel', (ds ++ (bs ++ c :: more)).length < fuel' →
        ∃ rest', readType fuel' (ds ++ (bs ++ c :: more)) = .ok (t, rest') ∧ skipBlanks rest' = c :: more := by
  have hblank := skipBlanks_head hc
  cases fuel with
  | zero => cases h
  | succ fuel =>
    rcases readType_cases fuel cs with ⟨stop, -, hread⟩ | ⟨n, rest₀, hn, hends, rfl, hread⟩ |
      ⟨n, bs, inner, hn, hb, rfl, hread⟩
    · rw [hread] at h
      cases h
    · rw [hread] at h
      cases h
      rw [skipBlanks_skipBlanks] at hc
      obtain ⟨bs, hb, hrest⟩ := exists_blanks rest₀
      rw [hc] at hrest
      subst hrest
      refine ⟨n.toList, bs, .bare hn, hb, rfl, fun more fuel' hfuel => ?_⟩
      have hskip : ∀ more, skipBlanks (bs ++ c :: more) = c :: more := fun more => by
        rw [skipBlanks_append hb, skipBlanks_cons hblank]
      have hends' : EndsType (bs ++ c :: more) := by
        refine ⟨hends.name.congr, fun x hx => hends.args after ?_⟩
        rw [hskip, List.cons.injEq] at hx
        rw [hskip, hx.1]
      obtain ⟨rest', hread', hskip'⟩ := readType_of_text fuel' (.bare hn) (by simp at hfuel ⊢; omega) hends'
      exact ⟨rest', hread', hskip'.trans (hskip more)⟩
    · rw [hread] at h
      obtain ⟨⟨args, rest₀⟩, hargs, hpair⟩ := bind_eq_ok h
      cases hpair
      obtain ⟨ds, hds, rfl⟩ := text_of_readArgs fuel hargs
      obtain ⟨bs', hb', hrest⟩ := exists_blanks rest₀
      rw [hc] at hrest
      refine ⟨_, bs', .applied hn hb hds, hb', by rw [hrest]; simp, fun more fuel' hfuel => ?_⟩
      obtain ⟨fuel', rfl⟩ := Nat.exists_eq_add_one_of_ne_zero (Nat.ne_zero_of_lt hfuel)
      have hargs' : readArgs fuel' (ds ++ (bs' ++ c :: more)) = .ok (args, bs' ++ c :: more) :=
        readArgs_of_text fuel' hds (by simp at hfuel; omega)
      refine ⟨bs' ++ c :: more, ?_, by rw [skipBlanks_append hb', skipBlanks_cons hblank]⟩
      simp only [List.append_assoc, List.cons_append]
      rw [readType_applied hn hb, hargs']
      rfl

theorem readArg_upTo {fuel : ℕ} {cs rest after : List Char} {a : TypeArg} {c : Char}
    (h : readArg fuel cs = .ok (a, rest)) (hc : skipBlanks rest = c :: after) :
    ∃ bs ds bs', Blanks bs ∧ ArgText a ds ∧ Blanks bs' ∧ cs = bs ++ (ds ++ (bs' ++ c :: after)) ∧
      ∀ more fuel', (bs ++ (ds ++ (bs' ++ c :: more))).length < fuel' →
        ∃ rest', readArg fuel' (bs ++ (ds ++ (bs' ++ c :: more))) = .ok (a, rest') ∧ skipBlanks rest' = c :: more := by
  obtain ⟨bs, hb, ⟨rest₀, rfl⟩ | ⟨text, rfl, hunmarked⟩⟩ := marked_or_unmarked cs
  · rw [readArg_marked hb] at h
    obtain ⟨⟨p, rest₁⟩, hname, hpair⟩ := bind_eq_ok h
    cases hpair
    rcases readName_cases rest₀ with ⟨n, rest', hn, hends, rfl, hread⟩ | ⟨stop, -, hread⟩
    · rw [hname] at hread
      cases hread
      obtain ⟨bs', hb', hrest⟩ := exists_blanks rest₁
      rw [hc] at hrest
      subst hrest
      refine ⟨bs, _, bs', hb, .param hn, hb', by simp, fun more fuel' _ => ⟨bs' ++ c :: more, ?_, ?_⟩⟩
      · rw [List.cons_append, readArg_marked hb, readName_of_name hn hends.congr]
        rfl
      · rw [skipBlanks_append hb', skipBlanks_cons (skipBlanks_head hc)]
    · rw [hname] at hread
      cases hread
  · rw [readArg_unmarked hb hunmarked] at h
    obtain ⟨⟨t, rest₁⟩, hread, hpair⟩ := bind_eq_ok h
    cases hpair
    obtain ⟨ds, bs', hds, hb', rfl, hagain⟩ := readType_upTo hread hc
    refine ⟨bs, ds, bs', hb, .closed hds, hb', rfl, fun more fuel' hfuel => ?_⟩
    obtain ⟨rest', hread', hskip⟩ := hagain more fuel' (by simp at hfuel ⊢; omega)
    refine ⟨rest', ?_, hskip⟩
    rw [readArg_unmarked hb (hds.unmarked _), hread']
    rfl

/-! ### Faults -/

theorem bind_eq_error {ε α β : Type} {x : Except ε α} {f : α → Except ε β} {e : ε} (h : x >>= f = .error e) :
    x = .error e ∨ ∃ a, x = .ok a ∧ f a = .error e := by
  cases x with
  | error e' => cases h; exact .inl rfl
  | ok a => exact .inr ⟨a, rfl, h⟩

/-- a type, as a kind of texts -/
def IsType (cs : List Char) : Prop := ∃ t, TypeText t cs

/-- arguments with their closing bracket, as a kind of texts -/
def AreArgs (cs : List Char) : Prop := ∃ args, ArgsText args cs

/-- an argument with blanks before it, as a kind of texts -/
def IsArg (cs : List Char) : Prop := ∃ bs a ds, Blanks bs ∧ ArgText a ds ∧ cs = bs ++ ds

/-- a type is read at the front of a text, by a reader that nests as deep as the text is long -/
def TakesType (cs : List Char) : Prop := ∃ fuel r, cs.length < fuel ∧ readType fuel cs = .ok r

/-- arguments are read at the front of a text, by a reader that nests as deep as the text is long -/
def TakesArgs (cs : List Char) : Prop := ∃ fuel r, cs.length + 1 < fuel ∧ readArgs fuel cs = .ok r

/-- an argument is read at the front of a text, by a reader that nests as deep as the text is long -/
def TakesArg (cs : List Char) : Prop := ∃ fuel r, cs.length < fuel ∧ readArg fuel cs = .ok r

theorem TakesType.name {cs : List Char} (h : TakesType cs) : TakesName cs := by
  obtain ⟨fuel, r, hfuel, hread⟩ := h
  obtain ⟨fuel, rfl⟩ := Nat.exists_eq_add_one_of_ne_zero (Nat.ne_zero_of_lt hfuel)
  rw [readType] at hread
  obtain ⟨name, hname, -⟩ := bind_eq_ok hread
  exact ⟨name, hname⟩

theorem TakesType.args {n : String} {bs text : List Char} (hn : isName n = true) (hb : Blanks bs)
    (h : TakesType (n.toList ++ (bs ++ '<' :: text))) : TakesArgs text := by
  obtain ⟨fuel, r, hfuel, hread⟩ := h
  obtain ⟨fuel, rfl⟩ := Nat.exists_eq_add_one_of_ne_zero (Nat.ne_zero_of_lt hfuel)
  rw [readType_applied hn hb] at hread
  obtain ⟨args, hargs, -⟩ := bind_eq_ok hread
  obtain ⟨c, cs, hcs, -⟩ := exists_cons_of_isName hn
  exact ⟨fuel, args, by simp [hcs] at hfuel; omega, hargs⟩

theorem TakesArgs.arg {cs : List Char} (h : TakesArgs cs) : TakesArg cs := by
  obtain ⟨fuel, r, hfuel, hread⟩ := h
  obtain ⟨fuel, rfl⟩ := Nat.exists_eq_add_one_of_ne_zero (Nat.ne_zero_of_lt hfuel)
  rw [readArgs_succ] at hread
  obtain ⟨arg, harg, -⟩ := bind_eq_ok hread
  exact ⟨fuel, arg, by omega, harg⟩

theorem TakesArg.name {bs text : List Char} (hb : Blanks bs) (h : TakesArg (bs ++ '?' :: text)) : TakesName text := by
  obtain ⟨fuel, r, -, hread⟩ := h
  rw [readArg_marked hb] at hread
  obtain ⟨name, hname, -⟩ := bind_eq_ok hread
  exact ⟨name, hname⟩

theorem TakesArg.type {bs text : List Char} (hb : Blanks bs) (hunmarked : Unmarked text) (h : TakesArg (bs ++ text)) :
    TakesType text := by
  obtain ⟨fuel, r, hfuel, hread⟩ := h
  rw [readArg_unmarked hb hunmarked] at hread
  obtain ⟨type, htype, -⟩ := bind_eq_ok hread
  exact ⟨fuel, type, by simp at hfuel; omega, htype⟩

theorem readMore_comma (fuel : ℕ) (a : TypeArg) {rest more : List Char} (h : skipBlanks rest = ',' :: more) :
    readMore fuel a rest = readArgs fuel more >>= fun r => .ok (a :: r.1, r.2) := by
  simp only [readMore, h]
  rfl

theorem readMore_other (fuel : ℕ) (a : TypeArg) {rest after : List Char} {c : Char} (h : skipBlanks rest = c :: after)
    (hcomma : c ≠ ',') (hclose : c ≠ '>') : readMore fuel a rest = .error (.before (c :: after) c) := by
  simp only [readMore, h]
  split
  next hx => exact absurd (List.cons.inj hx).1 hcomma
  next hx => exact absurd (List.cons.inj hx).1 hclose
  next => rfl

mutual

theorem readType_leaves (fuel : ℕ) {cs : List Char} {stop : Stop} (hfuel : cs.length < fuel)
    (h : readType fuel cs = .error stop) : Leaves IsType TakesType cs stop := by
  cases fuel with
  | zero => exact absurd hfuel (Nat.not_lt_zero _)
  | succ fuel =>
    rcases readType_cases fuel cs with ⟨stop', hleaves, hread⟩ | ⟨n, rest, -, -, -, hread⟩ |
      ⟨n, bs, inner, hn, hb, rfl, hread⟩
    · rw [hread] at h
      cases h
      refine hleaves.after [] (by simp) (fun text htext => ⟨[], ⟨String.ofList text, []⟩, ?_⟩)
        fun text _ htaken => htaken.name
      simpa using TypeText.bare htext
    · rw [hread] at h
      cases h
    · rw [hread] at h
      rcases bind_eq_error h with hargs | ⟨r, -, hr⟩
      · obtain ⟨c, cs, hcs, -⟩ := exists_cons_of_isName hn
        have hleaves := readArgs_leaves fuel (by simp [hcs] at hfuel; omega) hargs
        have hwhole : Leaves IsType TakesType (n.toList ++ (bs ++ ['<']) ++ inner) stop := by
          refine hleaves.after _ ?_ (fun text ⟨args, htext⟩ => ⟨[], ⟨n, args⟩, ?_⟩) fun text _ htaken => ?_
          · simp; decide +kernel
          · simpa using TypeText.applied hn hb htext
          · exact TakesType.args hn hb (by simpa using htaken)
        simpa using hwhole
      · cases hr

theorem readArgs_leaves (fuel : ℕ) {cs : List Char} {stop : Stop} (hfuel : cs.length + 1 < fuel)
    (h : readArgs fuel cs = .error stop) : Leaves AreArgs TakesArgs cs stop := by
  cases fuel with
  | zero => exact absurd hfuel (Nat.not_lt_zero _)
  | succ fuel =>
    rw [readArgs_succ] at h
    rcases bind_eq_error h with harg | ⟨⟨a, rest⟩, harg, hmore⟩
    · refine (readArg_leaves fuel (by omega) harg).after [] (by simp) ?_ fun text _ htaken => htaken.arg
      rintro text ⟨bs, a, ds, hb, hds, rfl⟩
      exact ⟨['>'], [a], by simpa using ArgsText.last hb hds .nil⟩
    · simp only at hmore
      cases hskip : skipBlanks rest with
      | nil =>
        have hended : readMore fuel a rest = .error .ended := by simp only [readMore, hskip]; rfl
        rw [hended] at hmore
        cases hmore
        obtain ⟨bs, ds, bs', hb, hds, hb', rfl⟩ := text_of_readArg fuel harg
        have hrest : Blanks rest := List.dropWhile_eq_nil_iff.1 hskip
        have hjoin : Blanks (bs' ++ rest) := List.forall_mem_append.2 ⟨hb', hrest⟩
        exact .ended ⟨['>'], [a], by simpa using ArgsText.last hb hds hjoin⟩
      | cons c after =>
        obtain ⟨bs, ds, bs', hb, hds, hb', rfl, hagain⟩ := readArg_upTo harg hskip
        -- whatever follows the character, the reader comes to it after the argument
        have hreach : ∀ more, TakesArgs (bs ++ (ds ++ (bs' ++ c :: more))) → ∃ fuel rest r,
            (bs ++ (ds ++ (bs' ++ c :: more))).length < fuel ∧ skipBlanks rest = c :: more ∧
              readMore fuel a rest = .ok r := by
          rintro more ⟨fuel, r, hfuel, hread⟩
          obtain ⟨fuel, rfl⟩ := Nat.exists_eq_add_one_of_ne_zero (Nat.ne_zero_of_lt hfuel)
          obtain ⟨rest', harg', hskip'⟩ := hagain more fuel (by omega)
          rw [readArgs_succ, harg'] at hread
          exact ⟨fuel, rest', r, by omega, hskip', hread⟩
        by_cases hcomma : c = ','
        · subst hcomma
          rw [readMore_comma fuel a hskip] at hmore
          rcases bind_eq_error hmore with hargs | ⟨r, -, hr⟩
          · have hleaves := readArgs_leaves fuel (by simp at hfuel; omega) hargs
            have hwhole : Leaves AreArgs TakesArgs (bs ++ (ds ++ (bs' ++ [','])) ++ after) stop := by
              refine hleaves.after _ ?_ (fun text ⟨args, htext⟩ => ⟨[], a :: args, ?_⟩) fun text _ htaken => ?_
              · simp; decide +kernel
              · simpa using ArgsText.cons hb hds hb' htext
              · obtain ⟨fuel', rest', r, hfuel', hskip', hread⟩ := hreach text (by simpa using htaken)
                rw [readMore_comma fuel' a hskip'] at hread
                obtain ⟨args, hargs, -⟩ := bind_eq_ok hread
                exact ⟨fuel', args, by simp at hfuel'; omega, hargs⟩
            simpa using hwhole
          · cases hr
        · by_cases hclose : c = '>'
          · subst hclose
            rw [readMore_last fuel a hskip] at hmore
            cases hmore
          · rw [readMore_other fuel a hskip hcomma hclose] at hmore
            cases hmore
            have hcs : bs ++ (ds ++ (bs' ++ c :: after)) = bs ++ (ds ++ bs') ++ c :: after := by simp
            refine .before hcs ⟨['>'], [a], ?_⟩ fun more htaken => ?_
            · simpa using ArgsText.last hb hds hb'
            · obtain ⟨fuel', rest', r, -, hskip', hread⟩ := hreach more (by simpa using htaken)
              rw [readMore_other fuel' a hskip' hcomma hclose] at hread
              cases hread

theorem readArg_leaves (fuel : ℕ) {cs : List Char} {stop : Stop} (hfuel : cs.length < fuel)
    (h : readArg fuel cs = .error stop) : Leaves IsArg TakesArg cs stop := by
  obtain ⟨bs, hb, ⟨rest, rfl⟩ | ⟨text, rfl, hunmarked⟩⟩ := marked_or_unmarked cs
  · rw [readArg_marked hb] at h
    rcases bind_eq_error h with hname | ⟨r, -, hr⟩
    · rcases readName_cases rest with ⟨n, rest', -, -, -, hread⟩ | ⟨stop', hleaves, hread⟩
      · rw [hread] at hname
        cases hname
      · rw [hread] at hname
        cases hname
        have hwhole : Leaves IsArg TakesArg (bs ++ ['?'] ++ rest) stop := by
          refine hleaves.after _ ?_ (fun text htext => ⟨[], bs, .param (String.ofList text), _, hb, .param htext, ?_⟩)
            fun text _ htaken => ?_
          · simp; decide +kernel
          · simp
          · exact TakesArg.name hb (by simpa using htaken)
        simpa using hwhole
    · cases hr
  · rw [readArg_unmarked hb hunmarked] at h
    rcases bind_eq_error h with htype | ⟨r, -, hr⟩
    · have hleaves := readType_leaves fuel (by simp at hfuel; omega) htype
      refine hleaves.after bs (fun c hc => ?_) ?_ fun text hhead htaken => ?_
      · exact not_isNameRun_of_isBlank (hb c (List.mem_of_mem_getLast? hc))
      · rintro text ⟨t, htext⟩
        exact ⟨[], bs, .closed t, text, hb, .closed htext, by simp⟩
      · exact TakesArg.type hb (fun c hc => hunmarked c (hhead ▸ hc)) htaken
    · cases hr

end

/-! ## Whole texts -/

/-- a text is read, as a kind of texts -/
def IsRead (cs : List Char) : Prop := ∃ t, parse (String.ofList cs) = .ok t

theorem parse_of_unblank {s : String} {bs text : List Char} {c : Char} (hb : Blanks bs) (hc : isBlank c = false)
    (hs : s.toList = bs ++ c :: text) : parse s =
      match readType ((c :: text).length + 1) (c :: text) with
      | .error stop => .error (stop.error s)
      | .ok (t, rest) =>
        match skipBlanks rest with
        | [] => .ok t
        | c :: rest => .error ((Stop.before (c :: rest) c).error s) := by
  have hskip : skipBlanks s.toList = c :: text := by rw [hs, skipBlanks_append hb, skipBlanks_cons hc]
  cases hread : readType ((c :: text).length + 1) (c :: text) with
  | error stop => simp only [parse, hskip, hread]
  | ok r =>
    obtain ⟨t, rest⟩ := r
    cases hrest : skipBlanks rest <;> simp only [parse, hskip, hread, hrest]

/-- **The ends of a whole text.** It is blank, or it is read, or it leaves the texts that are read by its fault. -/
theorem parse_cases (s : String) :
    (Blanks s.toList ∧ parse s = .error .empty) ∨ (∃ t, parse s = .ok t) ∨
      ∃ stop, Leaves IsRead IsRead s.toList stop ∧ parse s = .error (stop.error s) := by
  obtain ⟨bs, hb, hs⟩ := exists_blanks s.toList
  cases hskip : skipBlanks s.toList with
  | nil =>
    rw [hskip, List.append_nil] at hs
    exact .inl ⟨hs ▸ hb, by rw [parse, hskip]⟩
  | cons c text =>
    rw [hskip] at hs
    have hblank := skipBlanks_head hskip
    have hparse := parse_of_unblank hb hblank hs
    cases hread : readType ((c :: text).length + 1) (c :: text) with
    | error stop =>
      rw [hread] at hparse
      refine .inr (.inr ⟨stop, ?_, hparse⟩)
      rw [hs]
      have hleaves := readType_leaves _ (Nat.lt_succ_self _) hread
      refine hleaves.after bs (fun d hd => ?_) (fun text ⟨t, htext⟩ => ⟨[], t, ?_⟩) fun text' hhead ⟨t, ht⟩ => ?_
      · exact not_isNameRun_of_isBlank (hb d (List.mem_of_mem_getLast? hd))
      · exact (parse_ok_iff _ _).2 ⟨bs, text, [], hb, htext, .nil, String.toList_ofList⟩
      · obtain ⟨text', rfl⟩ := List.head?_eq_some_iff.1 hhead
        rw [parse_of_unblank hb hblank String.toList_ofList] at ht
        cases hread' : readType ((c :: text').length + 1) (c :: text') with
        | error stop' => rw [hread'] at ht; cases ht
        | ok r => exact ⟨_, r, Nat.lt_succ_self _, hread'⟩
    | ok r =>
      obtain ⟨t, rest⟩ := r
      rw [hread] at hparse
      cases hafter : skipBlanks rest with
      | nil => exact .inr (.inl ⟨t, by simp only [hparse, hafter]⟩)
      | cons d after =>
        simp only [hafter] at hparse
        refine .inr (.inr ⟨.before (d :: after) d, ?_, hparse⟩)
        obtain ⟨ds, bs', hds, hb', htext, hagain⟩ := readType_upTo hread hafter
        have hfront : s.toList = bs ++ (ds ++ bs') ++ d :: after := by rw [hs, htext]; simp
        refine .before hfront ⟨[], t, ?_⟩ fun more ⟨u, hu⟩ => ?_
        · exact (parse_ok_iff _ _).2 ⟨bs, ds, bs', hb, hds, hb', by simp⟩
        · obtain ⟨text', htext'⟩ : ∃ text', ds ++ (bs' ++ d :: more) = c :: text' := by
            obtain ⟨c', ds, rfl, -⟩ := hds.exists_cons
            simp only [List.cons_append, List.cons.injEq] at htext
            exact ⟨_, by rw [htext.1, List.cons_append]⟩
          obtain ⟨rest', hread', hskip'⟩ := hagain more _ (Nat.lt_succ_self _)
          rw [htext'] at hread'
          have hwhole : (String.ofList (bs ++ (ds ++ bs') ++ d :: more)).toList = bs ++ c :: text' := by simp [← htext']
          rw [parse_of_unblank hb hblank hwhole, hread'] at hu
          simp only [hskip'] at hu
          cases hu

/-- a text that can be continued to one that is read -/
def Viable (s : String) : Prop := ∃ more t, parse (s ++ more) = .ok t

theorem viable_ofList {cs : List Char} (h : ∃ more, IsRead (cs ++ more)) : Viable (String.ofList cs) := by
  obtain ⟨more, t, ht⟩ := h
  exact ⟨String.ofList more, t, by rwa [← String.ofList_append]⟩

theorem not_viable_ofList {cs : List Char} (h : ∀ more, ¬ IsRead (cs ++ more)) : ¬ Viable (String.ofList cs) := by
  rintro ⟨more, t, ht⟩
  refine h more.toList ⟨t, ?_⟩
  rwa [String.ofList_append, String.ofList_toList]

/-- an offset counts the bytes of what stands before it -/
theorem offset_eq {s : String} {front rest : List Char} (hs : s.toList = front ++ rest) :
    s.utf8ByteSize - (String.ofList rest).utf8ByteSize = (String.ofList front).utf8ByteSize := by
  rw [← s.ofList_toList, hs, String.ofList_append, String.utf8ByteSize_append, Nat.add_sub_cancel]

/-- an error about a text that is not blank is that of a fault by which the text leaves those that are read -/
theorem exists_leaves {s : String} {e : ParseError} (h : parse s = .error e) (he : e ≠ .empty) :
    ∃ stop, Leaves IsRead IsRead s.toList stop ∧ stop.error s = e := by
  rcases parse_cases s with ⟨-, hparse⟩ | ⟨t, hparse⟩ | ⟨stop, hleaves, hparse⟩
  · rw [h, Except.error.injEq] at hparse
    exact absurd hparse he
  · rw [h] at hparse
    cases hparse
  · rw [h, Except.error.injEq] at hparse
    exact ⟨stop, hleaves, hparse.symm⟩

/-- **Errors point at the earliest character at fault.** A text that is not read has an unexpected character, up to which it
could be continued to a text that is read, and with which it cannot; or it ended too early, and could be continued as it is;
or it has a misspelled run of name characters, with which it cannot be continued; or it is blank. Offsets count the bytes
before a character. -/
theorem parse_error_earliest (s : String) :
    (∀ input offset found, parse s = .error (.unexpected input offset found) → input = s ∧
      ∃ before after, s = before ++ String.singleton found ++ after ∧ before.utf8ByteSize = offset ∧ Viable before ∧
        ¬ Viable (before ++ String.singleton found)) ∧
      (∀ input, parse s = .error (.ended input) → input = s ∧ Viable s) ∧
      (∀ run, parse s = .error (.badName run) → ∃ before after, s = before ++ run ++ after ∧
        MaximalRun before.toList run.toList after.toList ∧ ¬ Viable (before ++ run)) ∧
      (parse s = .error .empty ↔ Blanks s.toList) := by
  refine ⟨fun input offset found h => ?_, fun input h => ?_, fun run h => ?_, ?_⟩
  · obtain ⟨stop, hleaves, herror⟩ := exists_leaves h (by simp)
    cases hleaves with
    | @before front rest c hs hviable hfault =>
      simp only [Stop.error, ParseError.unexpected.injEq] at herror
      obtain ⟨rfl, hoffset, rfl⟩ := herror
      refine ⟨rfl, String.ofList front, String.ofList rest, ?_, ?_, viable_ofList hviable, ?_⟩
      · rw [← String.toList_inj, hs]
        simp
      · rw [← hoffset, offset_eq hs]
      · have hnot : ¬ Viable (String.ofList (front ++ [c])) := not_viable_ofList fun more => by simpa using hfault more
        rwa [String.ofList_append] at hnot
    | ended => cases herror
    | badName => cases herror
  · obtain ⟨stop, hleaves, herror⟩ := exists_leaves h (by simp)
    cases hleaves with
    | ended hviable =>
      cases herror
      exact ⟨rfl, by simpa using viable_ofList hviable⟩
    | before => cases herror
    | badName => cases herror
  · obtain ⟨stop, hleaves, herror⟩ := exists_leaves h (by simp)
    cases hleaves with
    | @badName front run' rest hs hrun hfault =>
      cases herror
      refine ⟨String.ofList front, String.ofList rest, ?_, by simpa using hrun, ?_⟩
      · rw [← String.toList_inj, hs]
        simp
      · rw [← String.ofList_append]
        exact not_viable_ofList fun more => by simpa using hfault more
    | before => cases herror
    | ended => cases herror
  · constructor
    · intro h
      rcases parse_cases s with ⟨hblank, -⟩ | ⟨t, hparse⟩ | ⟨stop, -, hparse⟩
      · exact hblank
      · rw [h] at hparse
        cases hparse
      · rw [h] at hparse
        cases stop <;> cases hparse
    · intro hblank
      rw [parse, skipBlanks, List.dropWhile_eq_nil_iff.2 hblank]

/-- a bracket where an argument is missing, seven bytes from the front, as the blank before it has two; a text that ends
within a nested list; a run that is misspelled for its first and its last character; and nothing but blanks -/
theorem spaced_text_faults :
    (∃ before after, "Pair<\u00a0> ?" = before ++ String.singleton '>' ++ after ∧ before.utf8ByteSize = 7 ∧ Viable before ∧
      ¬ Viable (before ++ String.singleton '>')) ∧
      Viable "Pair<Map<?K,\n" ∧
      (∃ before after, "Pair<?A,\u00a02.é>" = before ++ "2.é" ++ after ∧
        MaximalRun before.toList "2.é".toList after.toList ∧ ¬ Viable (before ++ "2.é")) ∧
      parse "\u3000\n" = .error .empty := by
  obtain ⟨hunexpected, -, -, -⟩ := parse_error_earliest "Pair<\u00a0> ?"
  obtain ⟨-, hended, -, -⟩ := parse_error_earliest "Pair<Map<?K,\n"
  obtain ⟨-, -, hrun, -⟩ := parse_error_earliest "Pair<?A,\u00a02.é>"
  obtain ⟨-, -, -, hblank⟩ := parse_error_earliest "\u3000\n"
  have hblanks : Blanks "\u3000\n".toList :=
    List.forall_mem_cons.2 ⟨by decide, List.forall_mem_singleton.2 (by decide)⟩
  exact ⟨(hunexpected "Pair<\u00a0> ?" 7 '>' (by decide +kernel)).2, (hended "Pair<Map<?K,\n" (by decide +kernel)).2,
    hrun "2.é" (by decide +kernel), hblank.2 hblanks⟩

end TypeRef

end MixinPlanner
