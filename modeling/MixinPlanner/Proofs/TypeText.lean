/-
Which texts write a type reference, and that the text of a reference writes that reference and no other.

`TypeText` is the grammar of written types, with blanks wherever they are allowed; `Writes` adds the blanks around the whole.
A text is read exactly as the grammar has it:
- `readType_of_text`, `readArgs_of_text`: a text of a type is read in full, whatever follows that does not go on with it;
- `text_of_readType`, `text_of_readArgs`: what has been read is a text of the type that was found;
- `parse_ok_iff`: both together, for a whole text.

`text_chars` says that the printed characters are a text in the grammar, for a reference whose names are spelled as names.
`parse_text_lossless` puts these together.

`NameSpelling` spells the names of the grammar out, character by character; `parse_iff_derived` says with it that what is
read is what the grammar derives.
-/
import Mathlib.Tactic
import Mathlib.Data.List.DropRight
import Mathlib.Data.List.TakeWhile
import MixinPlanner.TypeRef.Order
import MixinPlanner.TypeRef.Parser
import MixinPlanner.TypeRef.Printer

namespace MixinPlanner

namespace TypeRef

open Text
open MixinPlanner.TypeRef.Parser

/-! ## The grammar -/

/-- nothing but blanks -/
def Blanks (cs : List Char) : Prop := ∀ c ∈ cs, isBlank c = true

mutual

/-- the texts of a type: its name, and its arguments in angle brackets if it has any -/
inductive TypeText : TypeRef → List Char → Prop
  | bare {n : String} (hn : isName n = true) : TypeText ⟨n, []⟩ n.toList
  | applied {n : String} {bs cs : List Char} {args : List TypeArg} (hn : isName n = true) (hb : Blanks bs)
      (h : ArgsText args cs) : TypeText ⟨n, args⟩ (n.toList ++ (bs ++ '<' :: cs))

/-- the texts of some arguments, with the closing bracket -/
inductive ArgsText : List TypeArg → List Char → Prop
  | last {a : TypeArg} {bs cs bs' : List Char} (hb : Blanks bs) (h : ArgText a cs) (hb' : Blanks bs') :
      ArgsText [a] (bs ++ (cs ++ (bs' ++ ['>'])))
  | cons {a : TypeArg} {args : List TypeArg} {bs cs bs' ds : List Char} (hb : Blanks bs) (h : ArgText a cs)
      (hb' : Blanks bs') (hs : ArgsText args ds) : ArgsText (a :: args) (bs ++ (cs ++ (bs' ++ ',' :: ds)))

/-- the texts of one argument -/
inductive ArgText : TypeArg → List Char → Prop
  | param {p : String} (hp : isName p = true) : ArgText (.param p) ('?' :: p.toList)
  | closed {t : TypeRef} {cs : List Char} (h : TypeText t cs) : ArgText (.closed t) cs

end

/-- a text writes a type, with blanks around it -/
def Writes (s : String) (t : TypeRef) : Prop :=
  ∃ bs cs bs', Blanks bs ∧ TypeText t cs ∧ Blanks bs' ∧ s.toList = bs ++ (cs ++ bs')

/-! ## Characters -/

/-- the code points of blanks -/
def blankCodes : List ℕ :=
  [9, 10, 11, 12, 13, 0x20, 0x85, 0xa0, 0x1680, 0x2000, 0x2001, 0x2002, 0x2003, 0x2004, 0x2005, 0x2006, 0x2007, 0x2008,
    0x2009, 0x200a, 0x2028, 0x2029, 0x202f, 0x205f, 0x3000]

theorem mem_blankCodes {c : Char} (h : isBlank c = true) : c.toNat ∈ blankCodes := by
  simp only [isBlank, Bool.or_eq_true, Bool.and_eq_true, decide_eq_true_eq, beq_iff_eq] at h
  simp only [blankCodes, List.mem_cons, List.not_mem_nil, or_false]
  omega

/-- a blank ends a run of name characters -/
theorem not_isNameRun_of_isBlank {c : Char} (h : isBlank c = true) : isNameRun c = false := by
  have hcodes : ∀ n ∈ blankCodes, isNameRun (Char.ofNat n) = false := by decide +kernel
  rw [← Char.ofNat_toNat c]
  exact hcodes c.toNat (mem_blankCodes h)

theorem isNameRun_of_isNameRest {c : Char} (h : isNameRest c = true) : isNameRun c = true := by
  simp only [isNameRest, isNameRun, isAlphanumeric, Bool.or_eq_true] at h ⊢
  tauto

theorem isNameRest_of_isNameStart {c : Char} (h : isNameStart c = true) : isNameRest c = true := by
  simp only [isNameStart, isNameRest, Char.isAlphanum, Bool.or_eq_true] at h ⊢
  tauto

/-- a name is a run of name characters, and not an empty one -/
theorem exists_cons_of_isName {n : String} (hn : isName n = true) :
    ∃ c cs, n.toList = c :: cs ∧ ∀ d ∈ c :: cs, isNameRun d = true := by
  unfold isName at hn
  cases h : n.toList with
  | nil => rw [h] at hn; simp at hn
  | cons c cs =>
    rw [h] at hn
    simp only [Bool.and_eq_true, List.all_eq_true] at hn
    refine ⟨c, cs, rfl, List.forall_mem_cons.2 ⟨?_, fun d hd => isNameRun_of_isNameRest (hn.2 d hd)⟩⟩
    exact isNameRun_of_isNameRest (isNameRest_of_isNameStart hn.1)

theorem Blanks.nil : Blanks [] := by simp [Blanks]

theorem blanks_takeWhile (cs : List Char) : Blanks (cs.takeWhile isBlank) :=
  fun _ hc => List.mem_takeWhile_imp hc

theorem skipBlanks_append {bs : List Char} (hb : Blanks bs) (cs : List Char) :
    skipBlanks (bs ++ cs) = skipBlanks cs := List.dropWhile_append_of_pos hb

theorem skipBlanks_cons {c : Char} (h : isBlank c = false) (cs : List Char) : skipBlanks (c :: cs) = c :: cs := by
  simp [skipBlanks, h]

theorem skipBlanks_skipBlanks (cs : List Char) : skipBlanks (skipBlanks cs) = skipBlanks cs :=
  List.dropWhile_idempotent isBlank cs

/-- a text is the blanks at its front and what is left when they are skipped -/
theorem exists_blanks (cs : List Char) : ∃ bs, Blanks bs ∧ cs = bs ++ skipBlanks cs :=
  ⟨cs.takeWhile isBlank, blanks_takeWhile cs, (List.takeWhile_append_dropWhile).symm⟩

/-! ## Names -/

/-- no name that ends before a text goes on in it -/
def EndsName (cs : List Char) : Prop := ∀ c ∈ cs.head?, isNameRun c = false

theorem endsName_cons {c : Char} (h : isNameRun c = false) (cs : List Char) : EndsName (c :: cs) := by
  simpa [EndsName] using h

theorem Blanks.endsName {bs cs : List Char} (hb : Blanks bs) (h : EndsName cs) : EndsName (bs ++ cs) := by
  cases bs with
  | nil => exact h
  | cons b bs => exact endsName_cons (not_isNameRun_of_isBlank (hb b List.mem_cons_self)) _

theorem readName_of_name {n : String} {rest : List Char} (hn : isName n = true) (hr : EndsName rest) :
    readName (n.toList ++ rest) = .ok (n, rest) := by
  obtain ⟨c, cs, hcs, hrun⟩ := exists_cons_of_isName hn
  have htake : (n.toList ++ rest).takeWhile isNameRun = n.toList := by
    rw [List.takeWhile_append_of_pos (hcs ▸ hrun)]
    cases rest with
    | nil => simp
    | cons d rest => simp [hr d rfl]
  have hdrop : (n.toList ++ rest).dropWhile isNameRun = rest := by
    rw [List.dropWhile_append_of_pos (hcs ▸ hrun)]
    cases rest with
    | nil => rfl
    | cons d rest => simp [hr d rfl]
  have hne : n.toList ≠ [] := by simp [hcs]
  unfold readName
  rw [htake, hdrop]
  split
  next h => exact absurd h hne
  next h => simp [hn]

theorem name_of_readName {cs rest : List Char} {n : String} (h : readName cs = .ok (n, rest)) :
    isName n = true ∧ cs = n.toList ++ rest := by
  unfold readName at h
  split at h
  next => cases h
  next hrun =>
    split_ifs at h with hn
    simp only [Except.ok.injEq, Prod.mk.injEq] at h
    obtain ⟨rfl, rfl⟩ := h
    refine ⟨hn, ?_⟩
    rw [String.toList_ofList, List.takeWhile_append_dropWhile]

/-! ## Reading a text of the grammar -/

/-- one argument at the front of a text, after its blanks -/
def readArg (fuel : ℕ) (cs : List Char) : Except Stop (TypeArg × List Char) :=
  match skipBlanks cs with
  | '?' :: rest => do
    let (name, rest) ← readName rest
    pure (TypeArg.param name, rest)
  | cs => do
    let (t, rest) ← readType fuel cs
    pure (TypeArg.closed t, rest)

/-- what follows an argument: another one, or the closing bracket -/
def readMore (fuel : ℕ) (arg : TypeArg) (rest : List Char) : Except Stop (List TypeArg × List Char) :=
  match skipBlanks rest with
  | ',' :: more => do
    let (args, rest) ← readArgs fuel more
    return (arg :: args, rest)
  | '>' :: rest => return ([arg], rest)
  | rest => .error (stopAt rest)

theorem readArgs_succ (fuel : ℕ) (cs : List Char) :
    readArgs (fuel + 1) cs = readArg fuel cs >>= fun r => readMore fuel r.1 r.2 := by
  rw [readArgs]
  split
  next rest h =>
    have hparam : readArg fuel cs = readName rest >>= fun r => .ok (.param r.1, r.2) := by
      rw [readArg, h]
      rfl
    rw [hparam]
    cases readName rest <;> rfl
  next h =>
    have hclosed : readArg fuel cs = readType fuel (skipBlanks cs) >>= fun r => .ok (.closed r.1, r.2) := by
      rw [readArg]
      split
      next rest hx => exact absurd hx (h rest)
      next => rfl
    rw [hclosed]
    cases readType fuel (skipBlanks cs) <;> rfl

theorem TypeText.exists_cons {t : TypeRef} {cs : List Char} (h : TypeText t cs) :
    ∃ c rest, cs = c :: rest ∧ isNameRun c = true := by
  cases h with
  | bare hn =>
    obtain ⟨c, cs, hcs, hrun⟩ := exists_cons_of_isName hn
    exact ⟨c, cs, hcs, hrun c List.mem_cons_self⟩
  | applied hn hb h =>
    obtain ⟨c, cs, hcs, hrun⟩ := exists_cons_of_isName hn
    exact ⟨c, _, by rw [hcs, List.cons_append], hrun c List.mem_cons_self⟩

/-- a text does not begin with a blank, nor with a question mark -/
theorem TypeText.skipBlanks_eq {t : TypeRef} {cs : List Char} (h : TypeText t cs) (rest : List Char) :
    skipBlanks (cs ++ rest) = cs ++ rest ∧ ∀ x, cs ++ rest ≠ '?' :: x := by
  obtain ⟨c, cs, rfl, hc⟩ := h.exists_cons
  have hblank : isBlank c = false := by
    by_contra hb
    rw [not_isNameRun_of_isBlank (by simpa using hb)] at hc
    cases hc
  refine ⟨skipBlanks_cons hblank _, fun x hx => ?_⟩
  rw [List.cons_append, List.cons.injEq] at hx
  rw [hx.1] at hc
  exact absurd hc (by decide +kernel)

/-- what may follow a text of a type: it ends the name, and opens no arguments -/
structure EndsType (rest : List Char) : Prop where
  name : EndsName rest
  args : ∀ x, skipBlanks rest ≠ '<' :: x

theorem endsType_blanks {bs cs : List Char} {c : Char} (hb : Blanks bs) (hc : isNameRun c = false)
    (hblank : isBlank c = false) (hne : c ≠ '<') : EndsType (bs ++ c :: cs) := by
  refine ⟨hb.endsName (endsName_cons hc cs), fun x hx => ?_⟩
  rw [skipBlanks_append hb, skipBlanks_cons hblank, List.cons.injEq] at hx
  exact hne hx.1

/-- a name that no arguments follow is a type -/
theorem readType_bare {n : String} (hn : isName n = true) (fuel : ℕ) {rest : List Char} (hrest : EndsType rest) :
    readType (fuel + 1) (n.toList ++ rest) = .ok (⟨n, []⟩, skipBlanks rest) := by
  simp only [readType, readName_of_name hn hrest.name, bind, Except.bind]
  split
  next inner hx => exact absurd hx (hrest.args inner)
  next => rfl

/-- a name before an opening bracket is that of the type with the arguments within -/
theorem readType_applied {n : String} (hn : isName n = true) {bs : List Char} (hb : Blanks bs) (fuel : ℕ)
    (inner : List Char) : readType (fuel + 1) (n.toList ++ (bs ++ '<' :: inner)) =
      readArgs fuel inner >>= fun r => .ok (⟨n, r.1⟩, r.2) := by
  have hends : EndsName (bs ++ '<' :: inner) := hb.endsName (endsName_cons (by decide +kernel) _)
  have hopen : skipBlanks (bs ++ '<' :: inner) = '<' :: inner := by
    rw [skipBlanks_append hb, skipBlanks_cons (by decide)]
  simp only [readType, readName_of_name hn hends, hopen, bind, Except.bind]
  cases readArgs fuel inner <;> rfl

theorem readMore_last (fuel : ℕ) (a : TypeArg) {rest rest' : List Char} (h : skipBlanks rest = '>' :: rest') :
    readMore fuel a rest = .ok ([a], rest') := by
  simp only [readMore, h]
  rfl

theorem readMore_cons {fuel : ℕ} (a : TypeArg) {rest more rest' : List Char} {args : List TypeArg}
    (h : skipBlanks rest = ',' :: more) (hs : readArgs fuel more = .ok (args, rest')) :
    readMore fuel a rest = .ok (a :: args, rest') := by
  simp only [readMore, h, hs]
  rfl

mutual

/-- a text of a type is read in full, up to blanks -/
theorem readType_of_text (fuel : ℕ) {t : TypeRef} {cs rest : List Char} (h : TypeText t cs) (hfuel : cs.length < fuel)
    (hrest : EndsType rest) :
    ∃ rest', readType fuel (cs ++ rest) = .ok (t, rest') ∧ skipBlanks rest' = skipBlanks rest := by
  cases fuel with
  | zero => exact absurd hfuel (Nat.not_lt_zero _)
  | succ fuel =>
    cases h with
    | bare hn => exact ⟨skipBlanks rest, readType_bare hn fuel hrest, skipBlanks_skipBlanks rest⟩
    | @applied n bs cs args hn hb h =>
      refine ⟨rest, ?_, rfl⟩
      have hargs : readArgs fuel (cs ++ rest) = .ok (args, rest) :=
        readArgs_of_text fuel h (by simp at hfuel; omega)
      rw [List.append_assoc, List.append_assoc, List.cons_append, readType_applied hn hb, hargs]
      rfl

/-- a text of some arguments is read up to the closing bracket -/
theorem readArgs_of_text (fuel : ℕ) {args : List TypeArg} {cs rest : List Char} (h : ArgsText args cs)
    (hfuel : cs.length < fuel) : readArgs fuel (cs ++ rest) = .ok (args, rest) := by
  cases fuel with
  | zero => exact absurd hfuel (Nat.not_lt_zero _)
  | succ fuel =>
    rw [readArgs_succ]
    cases h with
    | @last a bs cs bs' hb h hb' =>
      have hends : EndsType (bs' ++ '>' :: rest) :=
        endsType_blanks hb' (by decide +kernel) (by decide) (by decide)
      obtain ⟨rest', harg, hskip⟩ := readArg_of_text fuel hb h (by simp at hfuel; omega) hends
      rw [skipBlanks_append hb', skipBlanks_cons (by decide)] at hskip
      simp only [List.append_assoc, List.cons_append, List.nil_append, harg, bind, Except.bind]
      exact readMore_last fuel a hskip
    | @cons a args bs cs bs' ds hb h hb' hs =>
      have hends : EndsType (bs' ++ ',' :: (ds ++ rest)) :=
        endsType_blanks hb' (by decide +kernel) (by decide) (by decide)
      obtain ⟨rest', harg, hskip⟩ := readArg_of_text fuel hb h (by simp at hfuel; omega) hends
      rw [skipBlanks_append hb', skipBlanks_cons (by decide)] at hskip
      have hmore : readArgs fuel (ds ++ rest) = .ok (args, rest) :=
        readArgs_of_text fuel hs (by simp at hfuel; omega)
      simp only [List.append_assoc, List.cons_append, harg, bind, Except.bind]
      exact readMore_cons a hskip hmore

theorem readArg_of_text (fuel : ℕ) {a : TypeArg} {bs cs rest : List Char} (hb : Blanks bs) (h : ArgText a cs)
    (hfuel : cs.length < fuel) (hrest : EndsType rest) :
    ∃ rest', readArg fuel (bs ++ (cs ++ rest)) = .ok (a, rest') ∧ skipBlanks rest' = skipBlanks rest := by
  cases h with
  | param hp =>
    refine ⟨rest, ?_, rfl⟩
    simp only [readArg, skipBlanks_append hb, List.cons_append, skipBlanks_cons (show isBlank '?' = false by decide),
      readName_of_name hp hrest.name, bind, Except.bind]
    rfl
  | closed h =>
    obtain ⟨rest', hread, hskip⟩ := readType_of_text fuel h hfuel hrest
    obtain ⟨hkeep, hmark⟩ := h.skipBlanks_eq rest
    refine ⟨rest', ?_, hskip⟩
    simp only [readArg, skipBlanks_append hb, hkeep, hread, bind, Except.bind]
    rfl

end

/-! ## What has been read is a text of the grammar -/

theorem bind_eq_ok {ε α β : Type} {x : Except ε α} {f : α → Except ε β} {b : β} (h : x >>= f = .ok b) :
    ∃ a, x = .ok a ∧ f a = .ok b := by
  cases x with
  | error e => cases h
  | ok a => exact ⟨a, rfl, h⟩

mutual

theorem text_of_readType (fuel : ℕ) {t : TypeRef} {cs rest : List Char} (h : readType fuel cs = .ok (t, rest)) :
    ∃ ds bs, TypeText t ds ∧ Blanks bs ∧ cs = ds ++ (bs ++ rest) := by
  cases fuel with
  | zero => cases h
  | succ fuel =>
    rw [readType] at h
    obtain ⟨⟨n, after⟩, hname, hrest⟩ := bind_eq_ok h
    obtain ⟨hn, rfl⟩ := name_of_readName hname
    obtain ⟨bs, hb, hafter⟩ := exists_blanks after
    simp only at hrest
    split at hrest
    next inner hopen =>
      obtain ⟨⟨args, rest'⟩, hargs, hrest⟩ := bind_eq_ok hrest
      cases hrest
      obtain ⟨ds, hds, rfl⟩ := text_of_readArgs fuel hargs
      refine ⟨_, [], .applied hn hb hds, .nil, ?_⟩
      rw [hafter, hopen]
      simp
    next =>
      cases hrest
      exact ⟨n.toList, bs, .bare hn, hb, by rw [← hafter]⟩

theorem text_of_readArgs (fuel : ℕ) {args : List TypeArg} {cs rest : List Char}
    (h : readArgs fuel cs = .ok (args, rest)) : ∃ ds, ArgsText args ds ∧ cs = ds ++ rest := by
  cases fuel with
  | zero => cases h
  | succ fuel =>
    rw [readArgs_succ] at h
    obtain ⟨⟨a, after⟩, harg, hrest⟩ := bind_eq_ok h
    obtain ⟨bs, ds, bs', hb, hds, hb', rfl⟩ := text_of_readArg fuel harg
    obtain ⟨bs'', hb'', hafter⟩ := exists_blanks after
    have hjoin : Blanks (bs' ++ bs'') := fun c hc => (List.mem_append.1 hc).elim (hb' c) (hb'' c)
    simp only [readMore] at hrest
    split at hrest
    next more hmore =>
      obtain ⟨⟨args, rest'⟩, hargs, hrest⟩ := bind_eq_ok hrest
      cases hrest
      obtain ⟨es, hes, rfl⟩ := text_of_readArgs fuel hargs
      refine ⟨_, .cons hb hds hjoin hes, ?_⟩
      rw [hafter, hmore]
      simp
    next rest' hclose =>
      cases hrest
      refine ⟨_, .last hb hds hjoin, ?_⟩
      rw [hafter, hclose]
      simp
    next => cases hrest

theorem text_of_readArg (fuel : ℕ) {a : TypeArg} {cs rest : List Char} (h : readArg fuel cs = .ok (a, rest)) :
    ∃ bs ds bs', Blanks bs ∧ ArgText a ds ∧ Blanks bs' ∧ cs = bs ++ (ds ++ (bs' ++ rest)) := by
  obtain ⟨bs, hb, hcs⟩ := exists_blanks cs
  rw [readArg] at h
  split at h
  next after hmark =>
    obtain ⟨⟨p, rest'⟩, hname, h⟩ := bind_eq_ok h
    cases h
    obtain ⟨hp, rfl⟩ := name_of_readName hname
    refine ⟨bs, _, [], hb, .param hp, .nil, ?_⟩
    rw [hcs, hmark]
    simp
  next =>
    obtain ⟨⟨t, rest'⟩, hread, h⟩ := bind_eq_ok h
    cases h
    obtain ⟨ds, bs', hds, hb', hfront⟩ := text_of_readType fuel hread
    exact ⟨bs, ds, bs', hb, .closed hds, hb', by rw [hcs, hfront]⟩

end

/-! ## Whole texts -/

/-- **A text is read exactly as the grammar has it.** -/
theorem parse_ok_iff (s : String) (t : TypeRef) : parse s = .ok t ↔ Writes s t := by
  constructor
  · intro h
    obtain ⟨bs, hb, hs⟩ := exists_blanks s.toList
    unfold parse at h
    split at h
    next => cases h
    next =>
      split at h
      next => cases h
      next t' rest hread =>
        obtain ⟨ds, bs', hds, hb', hfront⟩ := text_of_readType _ hread
        split at h
        next hend =>
          cases h
          obtain ⟨bs'', hb'', hrest⟩ := exists_blanks rest
          rw [hend, List.append_nil] at hrest
          refine ⟨bs, ds, bs' ++ bs'', hb, hds, fun c hc => (List.mem_append.1 hc).elim (hb' c) (hb'' c), ?_⟩
          rw [hs, hfront, ← hrest]
        next => cases h
  · intro ⟨bs, cs, bs', hb, hcs, hb', hs⟩
    obtain ⟨hkeep, -⟩ := hcs.skipBlanks_eq bs'
    have hends : EndsType bs' := by
      have hnil : skipBlanks bs' = [] := List.dropWhile_eq_nil_iff.2 hb'
      refine ⟨?_, by simp [hnil]⟩
      rw [← List.append_nil bs']
      exact hb'.endsName (by simp [EndsName])
    obtain ⟨rest', hread, hskip⟩ := readType_of_text ((cs ++ bs').length + 1) hcs (by simp) hends
    have hend : skipBlanks rest' = [] := hskip.trans (List.dropWhile_eq_nil_iff.2 hb')
    obtain ⟨c, cs, rfl, -⟩ := hcs.exists_cons
    unfold parse
    rw [hs, skipBlanks_append hb, hkeep]
    simp only [List.cons_append] at hread ⊢
    simp only [hread, hend]

/-! ## Names spelled as names -/

mutual

theorem TypeText.valid {t : TypeRef} {cs : List Char} (h : TypeText t cs) : t.Valid := by
  cases h with
  | bare hn => exact ⟨hn, trivial⟩
  | applied hn hb h => exact ⟨hn, h.valid⟩

theorem ArgsText.valid {args : List TypeArg} {cs : List Char} (h : ArgsText args cs) : ValidAll args := by
  cases h with
  | last hb h hb' => exact ⟨h.valid, trivial⟩
  | cons hb h hb' hs => exact ⟨h.valid, hs.valid⟩

theorem ArgText.valid {a : TypeArg} {cs : List Char} (h : ArgText a cs) : ValidArg a := by
  cases h with
  | param hp => exact hp
  | closed h => exact h.valid

end

theorem Blanks.space : Blanks [' '] := by simp [Blanks, isBlank]

mutual

/-- the printed characters of a reference are a text of it -/
theorem text_chars (t : TypeRef) (h : t.Valid) : TypeText t t.chars := by
  cases t with
  | mk n args =>
    cases args with
    | nil => exact .bare h.1
    | cons a args =>
      have hargs := argsText_charsRest a args h.2.1 h.2.2 Blanks.nil
      exact .applied h.1 Blanks.nil hargs
termination_by sizeOf t

/-- the printed characters of arguments, with blanks before them -/
theorem argsText_charsRest (a : TypeArg) (args : List TypeArg) (ha : ValidArg a) (hs : ValidAll args) {bs : List Char}
    (hb : Blanks bs) : ArgsText (a :: args) (bs ++ (TypeArg.chars a ++ TypeArg.charsRest args)) := by
  cases args with
  | nil => exact .last hb (argText_chars a ha) Blanks.nil
  | cons a' args =>
    exact .cons hb (argText_chars a ha) Blanks.nil (argsText_charsRest a' args hs.1 hs.2 Blanks.space)
termination_by sizeOf (a :: args)

theorem argText_chars (a : TypeArg) (h : ValidArg a) : ArgText a (TypeArg.chars a) := by
  cases a with
  | param p => exact .param h
  | closed t => exact .closed (text_chars t h)
termination_by sizeOf a

end

theorem parse_text (t : TypeRef) (h : t.Valid) : parse t.text = .ok t :=
  (parse_ok_iff t.text t).2 ⟨[], t.chars, [], Blanks.nil, text_chars t h, Blanks.nil, by simp [text]⟩

theorem valid_of_parse {s : String} {t : TypeRef} (h : parse s = .ok t) : t.Valid := by
  obtain ⟨_, _, _, _, hcs, _, _⟩ := (parse_ok_iff s t).1 h
  exact hcs.valid

/-- the references that are read from texts are those whose names are spelled as names -/
theorem valid_iff_parsed (t : TypeRef) : t.Valid ↔ ∃ s, parse s = .ok t :=
  ⟨fun h => ⟨t.text, parse_text t h⟩, fun ⟨_, h⟩ => valid_of_parse h⟩

theorem text_inj {t u : TypeRef} (ht : t.Valid) (hu : u.Valid) (h : t.text = u.text) : t = u := by
  have hread : Except.ok t = .ok u := (parse_text t ht).symm.trans (h ▸ parse_text u hu)
  exact Except.ok.inj hread

theorem definition_valid {t : TypeRef} (h : t.Valid) : t.definition.Valid := by
  cases t with
  | mk n args => exact ⟨h.1, trivial⟩

mutual

/-- substituting arguments whose names are spelled as names -/
theorem substitute_valid {bind : String → Option TypeArg} (hbind : ∀ p a, bind p = some a → ValidArg a) (t : TypeRef)
    (h : t.Valid) : (t.substitute bind).Valid := by
  cases t with
  | mk n args => exact ⟨h.1, substituteAll_valid hbind args h.2⟩

theorem substituteAll_valid {bind : String → Option TypeArg} (hbind : ∀ p a, bind p = some a → ValidArg a)
    (args : List TypeArg) (h : ValidAll args) : ValidAll (substituteAll bind args) := by
  cases args with
  | nil => exact trivial
  | cons a args => exact ⟨substituteArg_valid hbind a h.1, substituteAll_valid hbind args h.2⟩

theorem substituteArg_valid {bind : String → Option TypeArg} (hbind : ∀ p a, bind p = some a → ValidArg a)
    (a : TypeArg) (h : ValidArg a) : ValidArg (substituteArg bind a) := by
  cases a with
  | closed t => exact substitute_valid hbind t h
  | param p =>
    rw [substituteArg]
    cases hp : bind p with
    | none => exact h
    | some a => exact hbind p a hp

end

/-- **Text and identity.** What is read from a text is read back from its own text; so is every reference whose names are
spelled as names, and these are closed under taking the definition and under substitution; among them, two references
with one text are one. -/
theorem parse_text_lossless :
    (∀ (s : String) (t : TypeRef), parse s = .ok t → parse t.text = .ok t) ∧
      (∀ t : TypeRef, t.Valid → parse t.text = .ok t) ∧
      (∀ (s : String) (t : TypeRef), parse s = .ok t → t.Valid) ∧
      (∀ t : TypeRef, t.Valid → t.definition.Valid) ∧
      (∀ (t : TypeRef) (bind : String → Option TypeArg), t.Valid → (∀ p a, bind p = some a → ValidArg a) →
        (t.substitute bind).Valid) ∧
      (∀ t u : TypeRef, t.Valid → u.Valid → (t.text = u.text ↔ t = u)) := by
  refine ⟨fun s t h => parse_text t (valid_of_parse h), parse_text, fun s t => valid_of_parse,
    fun t => definition_valid, fun t bind h hbind => substitute_valid hbind t h, fun t u ht hu => ?_⟩
  exact ⟨text_inj ht hu, fun h => h ▸ rfl⟩

/-- a text with blanks where the printed text has none, and none where it has some -/
theorem nested_text_lossless :
    let t : TypeRef := ⟨"Cache", [.param "V", .closed ⟨"Map", [.closed ⟨"a.Key+1", []⟩, .param "V"]⟩]⟩
    parse " Cache <?V,\tMap< a.Key+1,?V >>\n" = .ok t ∧ t.text = "Cache<?V, Map<a.Key+1, ?V>>" ∧
      parse "Cache<?V, Map<a.Key+1, ?V>>" = .ok t ∧
      (t.substitute fun p => if p = "V" then some (.param "W") else none).Valid := by
  intro t
  have hread : parse " Cache <?V,\tMap< a.Key+1,?V >>\n" = .ok t := by decide +kernel
  have htext : t.text = "Cache<?V, Map<a.Key+1, ?V>>" := by decide
  obtain ⟨hparsed, -, hvalid, -, hsubst, -⟩ := parse_text_lossless
  refine ⟨hread, htext, htext ▸ hparsed _ t hread, hsubst t _ (hvalid _ t hread) fun p a h => ?_⟩
  simp only [Option.ite_none_right_eq_some, Option.some.injEq] at h
  rw [← h.2]
  exact (by decide : isName "W" = true)

/-! ## The grammar is what is read -/

/-- the spelling of names: `[A-Za-z_][A-Za-z0-9_.+]*` -/
def NameSpelling (cs : List Char) : Prop :=
  ∃ c rest, cs = c :: rest ∧ ('A' ≤ c ∧ c ≤ 'Z' ∨ 'a' ≤ c ∧ c ≤ 'z' ∨ c = '_') ∧
    ∀ d ∈ rest, 'A' ≤ d ∧ d ≤ 'Z' ∨ 'a' ≤ d ∧ d ≤ 'z' ∨ '0' ≤ d ∧ d ≤ '9' ∨ d = '_' ∨ d = '.' ∨ d = '+'

theorem isAlpha_iff (c : Char) : c.isAlpha = true ↔ 'A' ≤ c ∧ c ≤ 'Z' ∨ 'a' ≤ c ∧ c ≤ 'z' := by
  have hupper : c.isUpper = true ↔ 'A' ≤ c ∧ c ≤ 'Z' := decide_eq_true_iff
  have hlower : c.isLower = true ↔ 'a' ≤ c ∧ c ≤ 'z' :=
    Bool.and_eq_true_iff.trans (and_congr decide_eq_true_iff decide_eq_true_iff)
  exact Bool.or_eq_true_iff.trans (or_congr hupper hlower)

theorem isDigit_iff (c : Char) : c.isDigit = true ↔ '0' ≤ c ∧ c ≤ '9' := by
  simp only [Char.isDigit, Char.le_def, Bool.and_eq_true, decide_eq_true_eq]

theorem isName_iff (n : String) : isName n = true ↔ NameSpelling n.toList := by
  unfold isName NameSpelling
  cases n.toList with
  | nil => simp
  | cons c rest =>
    simp only [Bool.and_eq_true, List.all_eq_true, isNameStart, isNameRest, Char.isAlphanum, Bool.or_eq_true,
      isAlpha_iff, isDigit_iff, beq_iff_eq, or_assoc]
    constructor
    · intro ⟨hc, hrest⟩
      exact ⟨c, rest, rfl, hc, hrest⟩
    · rintro ⟨c, rest, ⟨⟩, hc, hrest⟩
      exact ⟨hc, hrest⟩

/-- **The texts of a type are those of its grammar.** Reading a text yields a reference exactly if the grammar derives the
text for it, so the grammar derives a text for one reference at most; the names in it are those of `NameSpelling`. -/
theorem parse_iff_derived :
    (∀ (s : String) (t : TypeRef), parse s = .ok t ↔ Writes s t) ∧
      (∀ (s : String) (t u : TypeRef), Writes s t → Writes s u → t = u) ∧
      ∀ n : String, isName n = true ↔ NameSpelling n.toList := by
  refine ⟨parse_ok_iff, fun s t u ht hu => ?_, isName_iff⟩
  have hread : Except.ok t = .ok u := ((parse_ok_iff s t).2 ht).symm.trans ((parse_ok_iff s u).2 hu)
  exact Except.ok.inj hread

/-- blanks may stand around names and arguments, but not after a question mark; an open parameter takes no arguments, no
list of arguments is empty or ends in a comma, and nothing follows the closing bracket -/
theorem spaced_text_derived :
    Writes "\u3000Pair\n<\t?A ,B< C >\u00a0>\r" ⟨"Pair", [.param "A", .closed ⟨"B", [.closed ⟨"C", []⟩]⟩]⟩ ∧
      ∀ s ∈ ["", "A<? B>", "A<?B<C>>", "A<>", "A<B,>", "A<B> C", "A<B", "1A", "A\u00e9"], ∀ t, ¬ Writes s t := by
  obtain ⟨hread, -, -⟩ := parse_iff_derived
  refine ⟨(hread _ _).1 (by decide +kernel), fun s hs t ht => ?_⟩
  have hfails : ∀ s ∈ ["", "A<? B>", "A<?B<C>>", "A<>", "A<B,>", "A<B> C", "A<B", "1A", "A\u00e9"],
      (parse s).toOption = none := by decide +kernel
  have hparse := hfails s hs
  rw [(hread s t).2 ht] at hparse
  cases hparse

end TypeRef

end MixinPlanner
