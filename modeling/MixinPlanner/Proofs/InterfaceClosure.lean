/-
The interfaces of a type, and how many of them are found.

A type has the interfaces that it declares, those that these declare, and so on (`interfacesOf`). Declarations that expand
themselves come to no end of them, so the search for them stops when it has `closureBound`.

- `Ends` is the search as it goes, one waiting type at a time; `ends_iff`: it comes to an end for every type, with
  `allInterfaces`.
- `Searching` is what it keeps, by one lemma for each kind of turn; `Ends.stops`: it stops with as many interfaces as there is
  room for, or with all that there are.
- `closure_bounded`: what is found is a part of the interfaces, as many as there are or as there is room for, and so all of
  them if there is room.
- `interfacesOf_eq_image`, `allInterfaces_eq_image`: what maps the declarations of one type to those of another maps its
  interfaces.
-/
import MixinPlanner.Catalog
import MixinPlanner.Proofs.Members

namespace MixinPlanner

/-- what answers to a reference is that very type, or applies the definition that it stands for -/
theorem TypeRef.answers_iff (t wanted : TypeRef) :
    t.answers wanted = true ↔ t = wanted ∨ (∀ u, .closed u ∉ wanted.args) ∧ t.name = wanted.name := by
  rw [answers, Bool.or_eq_true, Bool.and_eq_true, beq_iff_eq, isDefinition_iff, sameDefinition, beq_iff_eq]

namespace Catalog

variable (c : Catalog)

theorem decl?_same_name {t u : TypeRef} (h : t.name = u.name) : c.decl? t = c.decl? u := by
  rw [decl?, decl?, h]

theorem isInterface_same_name {t u : TypeRef} (h : t.name = u.name) : c.isInterface t = c.isInterface u := by
  rw [isInterface, isInterface, c.decl?_same_name h]

theorem implements_iff (t wanted : TypeRef) : c.implements t wanted = true ↔
    ∃ i ∈ c.allInterfaces t, i = wanted ∨ (∀ u, .closed u ∉ wanted.args) ∧ i.name = wanted.name := by
  rw [implements, List.any_eq_true]
  exact exists_congr fun i => and_congr_right fun _ => i.answers_iff wanted

/-- a definition is implemented by what has an interface of its name -/
theorem implements_definition_iff (t : TypeRef) {wanted : TypeRef} (h : ∀ u, .closed u ∉ wanted.args) :
    c.implements t wanted = true ↔ ∃ i ∈ c.allInterfaces t, i.name = wanted.name := by
  rw [implements_iff]
  refine exists_congr fun i => and_congr_right fun _ => ?_
  constructor
  · rintro (rfl | ⟨-, hname⟩)
    · rfl
    · exact hname
  · exact fun hname => .inr ⟨h, hname⟩

/-- a type declares an interface, with its own arguments put in -/
def Declares (t i : TypeRef) : Prop := i ∈ c.directInterfaces t

/-- the interfaces of a type: those that it declares, those that these declare, and so on without end -/
def interfacesOf (t : TypeRef) : Set TypeRef := {i | Relation.TransGen c.Declares t i}

variable {c}

theorem Declares.mem {t i : TypeRef} (h : c.Declares t i) : i ∈ c.interfacesOf t := .single h

/-- what an interface of a type declares is an interface of the type -/
theorem mem_interfacesOf_of_declares {t i j : TypeRef} (hi : i ∈ c.interfacesOf t) (hj : c.Declares i j) :
    j ∈ c.interfacesOf t :=
  Relation.TransGen.tail hi hj

/-! ## The search -/

variable (c) in
/-- a search that has reached some interfaces and has others waiting comes to its end: it takes one that waits at a time,
until none is left or there is no room for more -/
inductive Ends : SortedSet TypeRef → List TypeRef → SortedSet TypeRef → Prop
  | idle (reached : SortedSet TypeRef) : Ends reached [] reached
  | full {reached : SortedSet TypeRef} (i : TypeRef) (rest : List TypeRef) (full : closureBound ≤ reached.size) :
      Ends reached (i :: rest) reached
  /-- one that is known is passed over -/
  | known {reached final : SortedSet TypeRef} {i : TypeRef} {rest : List TypeRef} (room : reached.size < closureBound)
      (known : i ∈ reached) (next : Ends reached rest final) : Ends reached (i :: rest) final
  /-- one that is new joins, and what it declares waits behind the others -/
  | new {reached final : SortedSet TypeRef} {i : TypeRef} {rest : List TypeRef} (room : reached.size < closureBound)
      (new : i ∉ reached) (next : Ends (reached.insert i) (rest ++ c.directInterfaces i) final) :
      Ends reached (i :: rest) final

theorem closure_nil (budget : ℕ) (reached : SortedSet TypeRef) : c.closure budget reached [] = reached := by
  cases budget <;> rfl

theorem closure_known (budget : ℕ) {reached : SortedSet TypeRef} {i : TypeRef} (rest : List TypeRef) (h : i ∈ reached) :
    c.closure budget reached (i :: rest) = c.closure budget reached rest := by
  cases budget with
  | zero => rfl
  | succ budget => rw [closure, closure, List.dropWhile_cons_of_pos (SortedBy.contains_iff_mem.2 h)]

theorem closure_new (budget : ℕ) {reached : SortedSet TypeRef} {i : TypeRef} (rest : List TypeRef) (h : i ∉ reached) :
    c.closure (budget + 1) reached (i :: rest) =
      c.closure budget (reached.insert i) (rest ++ c.directInterfaces i) := by
  rw [closure, List.dropWhile_cons_of_neg (mt SortedBy.contains_iff_mem.1 h)]

/-- the search ends whatever is declared: each turn uses up a waiting type or some of the room -/
theorem ends_closure (budget : ℕ) (reached : SortedSet TypeRef) (waiting : List TypeRef)
    (h : reached.size + budget = closureBound) : c.Ends reached waiting (c.closure budget reached waiting) := by
  induction budget generalizing reached waiting with
  | zero =>
    cases waiting with
    | nil => exact .idle reached
    | cons i rest => exact .full i rest h.ge
  | succ budget ih =>
    have hroom : reached.size < closureBound := by omega
    induction waiting with
    | nil =>
      rw [closure_nil]
      exact .idle reached
    | cons i rest ihrest =>
      by_cases hi : i ∈ reached
      · rw [closure_known _ _ hi]
        exact .known hroom hi ihrest
      · rw [closure_new _ _ hi]
        refine .new hroom hi (ih _ _ ?_)
        rw [SortedBy.size_insert_of_not_mem hi]
        omega

/-- it ends in one way only -/
theorem Ends.unique {reached final final' : SortedSet TypeRef} {waiting : List TypeRef} (h : c.Ends reached waiting final)
    (h' : c.Ends reached waiting final') : final = final' := by
  induction h with
  | idle reached =>
    cases h'
    rfl
  | full i rest full =>
    cases h' with
    | full => rfl
    | known room => exact absurd room full.not_gt
    | new room => exact absurd room full.not_gt
  | known room known next ih =>
    cases h' with
    | full _ _ full => exact absurd room full.not_gt
    | known _ _ next' => exact ih next'
    | new _ new => exact absurd known new
  | new room new next ih =>
    cases h' with
    | full _ _ full => exact absurd room full.not_gt
    | known _ known => exact absurd known new
    | new _ _ next' => exact ih next'

/-- from what a type declares, the search ends with the interfaces that are found -/
theorem ends_iff (t : TypeRef) (final : SortedSet TypeRef) :
    c.Ends .empty (c.directInterfaces t) final ↔ final = c.allInterfaces t := by
  have hends : c.Ends .empty (c.directInterfaces t) (c.allInterfaces t) := ends_closure closureBound _ _ (Nat.zero_add _)
  constructor
  · exact fun h => h.unique hends
  · rintro rfl
    exact hends

/-! ## What a search keeps -/

variable (c) in
/-- how far a search for the interfaces of a type has come -/
structure Searching (t : TypeRef) (reached : SortedSet TypeRef) (waiting : List TypeRef) : Prop where
  /-- what was reached, and what waits, are interfaces of the type -/
  held : ∀ i ∈ reached, i ∈ c.interfacesOf t
  awaited : ∀ i ∈ waiting, i ∈ c.interfacesOf t
  /-- what the type declares, or an interface that was reached, is not lost -/
  kept : ∀ u, u = t ∨ u ∈ reached → ∀ i, c.Declares u i → i ∈ reached ∨ i ∈ waiting
  /-- there are not more than there is room for -/
  room : reached.size ≤ closureBound

namespace Searching

variable {t i : TypeRef} {reached : SortedSet TypeRef} {rest : List TypeRef}

theorem start (t : TypeRef) : c.Searching t .empty (c.directInterfaces t) where
  held i hi := absurd hi List.not_mem_nil
  awaited i hi := Declares.mem hi
  kept u hu i hi := by
    rcases hu with rfl | hu
    · exact .inr hi
    · exact absurd hu List.not_mem_nil
  room := Nat.zero_le _

theorem known (h : c.Searching t reached (i :: rest)) (hi : i ∈ reached) : c.Searching t reached rest where
  held := h.held
  awaited j hj := h.awaited j (List.mem_cons_of_mem i hj)
  kept u hu j hj := by
    rcases h.kept u hu j hj with hmem | hmem
    · exact .inl hmem
    · rcases List.mem_cons.1 hmem with rfl | hmem
      · exact .inl hi
      · exact .inr hmem
  room := h.room

theorem new (h : c.Searching t reached (i :: rest)) (hroom : reached.size < closureBound) (hi : i ∉ reached) :
    c.Searching t (reached.insert i) (rest ++ c.directInterfaces i) where
  held j hj := by
    rcases SortedBy.mem_insert.1 hj with rfl | hj
    · exact h.awaited j List.mem_cons_self
    · exact h.held j hj
  awaited j hj := by
    rcases List.mem_append.1 hj with hj | hj
    · exact h.awaited j (List.mem_cons_of_mem i hj)
    · exact mem_interfacesOf_of_declares (h.awaited i List.mem_cons_self) hj
  kept u hu j hj := by
    -- the new one is the only type reached whose declarations were not seen to before
    have hold : u = i ∨ u = t ∨ u ∈ reached := by
      rcases hu with hu | hu
      · exact .inr (.inl hu)
      · rcases SortedBy.mem_insert.1 hu with hu | hu
        · exact .inl hu
        · exact .inr (.inr hu)
    rcases hold with rfl | hold
    · exact .inr (List.mem_append_right _ hj)
    · rcases h.kept u hold j hj with hmem | hmem
      · exact .inl (SortedBy.mem_insert.2 (.inr hmem))
      · rcases List.mem_cons.1 hmem with rfl | hmem
        · exact .inl (SortedBy.mem_insert.2 (.inl rfl))
        · exact .inr (List.mem_append_left _ hmem)
  room := by
    rw [SortedBy.size_insert_of_not_mem hi]
    exact hroom

/-- when nothing waits, every interface was reached -/
theorem complete (h : c.Searching t reached []) : ∀ j ∈ c.interfacesOf t, j ∈ reached := by
  intro j hj
  induction hj with
  | single hdeclared => exact (h.kept t (.inl rfl) _ hdeclared).resolve_right List.not_mem_nil
  | tail _ hdeclared ih => exact (h.kept _ (.inr ih) _ hdeclared).resolve_right List.not_mem_nil

end Searching

variable (c) in
/-- a search has stopped with interfaces of a type: as many as there is room for, or all that there are -/
structure Stopped (t : TypeRef) (final : SortedSet TypeRef) : Prop where
  sound : ∀ i ∈ final, i ∈ c.interfacesOf t
  room : final.size ≤ closureBound
  full_or_complete : final.size = closureBound ∨ ∀ i ∈ c.interfacesOf t, i ∈ final

/-- **Where a search stops.** -/
theorem Ends.stopped {t : TypeRef} {reached final : SortedSet TypeRef} {waiting : List TypeRef}
    (h : c.Ends reached waiting final) (hs : c.Searching t reached waiting) : c.Stopped t final := by
  induction h with
  | idle reached => exact ⟨hs.held, hs.room, .inr hs.complete⟩
  | full i rest full => exact ⟨hs.held, hs.room, .inl (le_antisymm hs.room full)⟩
  | known room known next ih => exact ih (hs.known known)
  | new room new next ih => exact ih (hs.new room new)

theorem stopped_allInterfaces (t : TypeRef) : c.Stopped t (c.allInterfaces t) :=
  ((ends_iff t _).2 rfl).stopped (.start t)

namespace Stopped

variable {t : TypeRef} {final : SortedSet TypeRef}

theorem subset (h : c.Stopped t final) : {i | i ∈ final} ⊆ c.interfacesOf t := h.sound

/-- the number of interfaces found is that of all, or the bound if that is less -/
theorem size_eq (h : c.Stopped t final) : (final.size : ℕ∞) = min (c.interfacesOf t).encard closureBound := by
  have hle : (final.size : ℕ∞) ≤ (c.interfacesOf t).encard := by
    rw [← final.encard_members]
    exact Set.encard_le_encard h.subset
  rcases h.full_or_complete with hfull | hall
  · rw [hfull] at hle ⊢
    exact (min_eq_right hle).symm
  · have heq : c.interfacesOf t = {i | i ∈ final} := Set.Subset.antisymm hall h.subset
    rw [heq, final.encard_members]
    exact (min_eq_left (Nat.cast_le.2 h.room)).symm

/-- all interfaces are found if there is room for them -/
theorem mem_iff (h : c.Stopped t final) (hsmall : (c.interfacesOf t).encard ≤ closureBound) (i : TypeRef) :
    i ∈ final ↔ i ∈ c.interfacesOf t := by
  have hall : c.interfacesOf t ⊆ {i | i ∈ final} := by
    rcases h.full_or_complete with hfull | hall
    · have hfinite : {i | i ∈ final}.Finite := Set.finite_of_encard_eq_coe final.encard_members
      have hle : (c.interfacesOf t).encard ≤ {i | i ∈ final}.encard := by
        rw [final.encard_members, hfull]
        exact hsmall
      exact (hfinite.eq_of_subset_of_encard_le h.subset hle).ge
    · exact hall
  exact ⟨h.sound i, fun hi => hall hi⟩

end Stopped

/-- there is room for all interfaces if fewer are found than there is room for -/
theorem encard_le_of_size_lt {t : TypeRef} (h : (c.allInterfaces t).size < closureBound) :
    (c.interfacesOf t).encard ≤ closureBound := by
  have hsize := (stopped_allInterfaces (c := c) t).size_eq
  rcases le_total (c.interfacesOf t).encard closureBound with hle | hge
  · exact hle
  · rw [min_eq_right hge, Nat.cast_inj] at hsize
    exact absurd hsize h.ne

/-! ## From the interfaces of one type to those of another -/

section Image

variable {t t' : TypeRef} {f : TypeRef → TypeRef} (hstart : c.directInterfaces t' = (c.directInterfaces t).map f)
  (hstep : ∀ i ∈ c.interfacesOf t, c.directInterfaces (f i) = (c.directInterfaces i).map f)

include hstart hstep

/-- a map between the declarations of two types, kept up by their interfaces, is one between their interfaces -/
theorem interfacesOf_eq_image : c.interfacesOf t' = f '' c.interfacesOf t := by
  apply Set.Subset.antisymm
  · intro i hi
    induction hi with
    | single hi =>
      have hi : _ ∈ c.directInterfaces t' := hi
      rw [hstart] at hi
      obtain ⟨j, hj, rfl⟩ := List.mem_map.1 hi
      exact ⟨j, Declares.mem hj, rfl⟩
    | tail _ hi ih =>
      obtain ⟨j, hj, rfl⟩ := ih
      have hi : _ ∈ c.directInterfaces (f j) := hi
      rw [hstep j hj] at hi
      obtain ⟨k, hk, rfl⟩ := List.mem_map.1 hi
      exact ⟨k, mem_interfacesOf_of_declares hj hk, rfl⟩
  · rintro _ ⟨i, hi, rfl⟩
    induction hi with
    | single hi =>
      apply Declares.mem
      rw [Declares, hstart]
      exact List.mem_map_of_mem hi
    | tail hj hi ih =>
      apply mem_interfacesOf_of_declares ih
      rw [Declares, hstep _ hj]
      exact List.mem_map_of_mem hi

/-- as long as the first search is not cut off, neither is the second, and what it finds is mapped -/
theorem allInterfaces_eq_image (hsmall : (c.allInterfaces t).size < closureBound) :
    c.allInterfaces t' = .ofList ((c.allInterfaces t).toList.map f) := by
  have himage := interfacesOf_eq_image hstart hstep
  have hroom : (c.interfacesOf t).encard ≤ closureBound := encard_le_of_size_lt hsmall
  have hroom' : (c.interfacesOf t').encard ≤ closureBound :=
    calc (c.interfacesOf t').encard = (f '' c.interfacesOf t).encard := by rw [himage]
      _ ≤ (c.interfacesOf t).encard := Set.encard_image_le f _
      _ ≤ closureBound := hroom
  apply SortedBy.eq_of_mem_iff
  intro i
  rw [(stopped_allInterfaces t').mem_iff hroom' i, himage, SortedBy.mem_ofList, List.mem_map]
  exact exists_congr fun j => and_congr_left fun _ => ((stopped_allInterfaces t).mem_iff hroom j).symm

end Image

/-! ## What is found -/

variable (c) in
/-- what is found of the interfaces of a type -/
structure Found (t : TypeRef) : Prop where
  /-- the search ends, with just what is found -/
  ends : ∀ final, c.Ends .empty (c.directInterfaces t) final ↔ final = c.allInterfaces t
  sound : ∀ i ∈ c.allInterfaces t, i ∈ c.interfacesOf t
  size : ((c.allInterfaces t).size : ℕ∞) = min (c.interfacesOf t).encard closureBound
  complete : (c.interfacesOf t).encard ≤ closureBound → ∀ i, i ∈ c.allInterfaces t ↔ i ∈ c.interfacesOf t
  /-- what a type implements is one of its interfaces, or a definition that one of them applies -/
  implements_sound : ∀ wanted, c.implements t wanted = true →
    ∃ i ∈ c.interfacesOf t, i = wanted ∨ (∀ u, .closed u ∉ wanted.args) ∧ i.name = wanted.name
  /-- if there is room for all interfaces, all these are implemented -/
  implements_complete : (c.interfacesOf t).encard ≤ closureBound → ∀ i ∈ c.interfacesOf t, ∀ wanted,
    i = wanted ∨ (∀ u, .closed u ∉ wanted.args) ∧ i.name = wanted.name → c.implements t wanted = true

variable (c) in
/-- **The closure is exact up to its bound.** The search ends for every type, whatever is declared. It finds interfaces of the
type only, and as many as there are, or as the bound allows if there are more. So it finds all of them if there are no more
than the bound allows, and what a type is said to implement is right, and then complete. -/
theorem closure_bounded (t : TypeRef) : c.Found t := by
  have hstopped := stopped_allInterfaces (c := c) t
  refine ⟨ends_iff t, hstopped.sound, hstopped.size_eq, hstopped.mem_iff, ?_, ?_⟩
  · intro wanted h
    obtain ⟨i, hi, hanswers⟩ := (c.implements_iff t wanted).1 h
    exact ⟨i, hstopped.sound i hi, hanswers⟩
  · intro hsmall i hi wanted hanswers
    exact (c.implements_iff t wanted).2 ⟨i, (hstopped.mem_iff hsmall i).2 hi, hanswers⟩

-- interfaces that are bases of each other
example :
    let catalog : Catalog := .ofList [(TypeDecl.ofInterface "IView").implementing ⟨"IModel", []⟩,
      (TypeDecl.ofInterface "IModel").implementing ⟨"IView", []⟩]
    (catalog.allInterfaces ⟨"IView", []⟩).toList = [⟨"IModel", []⟩, ⟨"IView", []⟩] := by
  decide

end Catalog

end MixinPlanner
