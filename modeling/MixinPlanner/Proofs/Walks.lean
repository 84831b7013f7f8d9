/-
Closed walks of a relation, as lists of what they pass.

A closed walk goes from each member to the next and from the last back to the first; it may start at any of its members.
A cycle passes no member twice. Two facts carry the rest:
- `ClosedWalk.exists_shorter`: a closed walk that passes some member twice can be cut short, so a shortest one is a cycle;
- `exists_closedWalk_of_pred`: among finitely many things of which each has a predecessor among them, some walk closes.
-/
import Mathlib.Tactic
import Mathlib.Data.List.Cycle
import Mathlib.Order.WellFoundedSet

namespace MixinPlanner

variable {α : Type} {R : α → α → Prop}

/-- each member leads to the next, and the last to the first -/
def ClosedWalk (R : α → α → Prop) (c : List α) : Prop := c ≠ [] ∧ (c ++ c.take 1).IsChain R

/-- a closed walk that passes no member twice -/
structure IsCycle (R : α → α → Prop) (c : List α) : Prop where
  closed : ClosedWalk R c
  nodup : c.Nodup

theorem closedWalk_cons (a : α) (l : List α) : ClosedWalk R (a :: l) ↔ (a :: (l ++ [a])).IsChain R := by
  simp [ClosedWalk]

theorem closedWalk_iff_chain (c : List α) : ClosedWalk R c ↔ c ≠ [] ∧ Cycle.Chain R (c : Cycle α) := by
  cases c with
  | nil => simp [ClosedWalk]
  | cons a l => simp [closedWalk_cons, Cycle.chain_coe_cons]

/-- a closed walk may start anywhere -/
theorem ClosedWalk.rotated {c d : List α} (h : ClosedWalk R c) (hcd : c ~r d) : ClosedWalk R d := by
  rw [closedWalk_iff_chain] at h ⊢
  rw [← Cycle.coe_eq_coe.2 hcd]
  exact ⟨fun hd => h.1 (by simpa [hd] using hcd), h.2⟩

theorem ClosedWalk.turn {l₁ l₂ : List α} {a : α} (h : ClosedWalk R (l₁ ++ a :: l₂)) :
    ClosedWalk R (a :: (l₂ ++ l₁)) :=
  h.rotated (@List.isRotated_append α l₁ (a :: l₂))

/-- a closed walk started at one of its members -/
theorem ClosedWalk.exists_from {c : List α} (h : ClosedWalk R c) {a : α} (ha : a ∈ c) :
    ∃ l, ClosedWalk R (a :: l) ∧ (a :: l).length = c.length := by
  obtain ⟨l₁, l₂, rfl⟩ := List.append_of_mem ha
  exact ⟨l₂ ++ l₁, h.turn, by simp; omega⟩

theorem ClosedWalk.imp {S : α → α → Prop} {c : List α} (h : ClosedWalk R c)
    (hRS : ∀ a ∈ c, ∀ b ∈ c, R a b → S a b) : ClosedWalk S c := by
  refine ⟨h.1, h.2.imp_of_mem_imp fun a b ha hb => hRS a ?_ b ?_⟩
  · rcases List.mem_append.1 ha with ha | ha
    · exact ha
    · exact List.mem_of_mem_take ha
  · rcases List.mem_append.1 hb with hb | hb
    · exact hb
    · exact List.mem_of_mem_take hb

/-- each member of a closed walk leads to another, or to itself -/
theorem ClosedWalk.exists_next {c : List α} (h : ClosedWalk R c) {a : α} (ha : a ∈ c) : ∃ b ∈ c, R a b := by
  obtain ⟨l₁, l₂, rfl⟩ := List.append_of_mem ha
  have hturn := (closedWalk_cons a _).1 h.turn
  cases hl : l₂ ++ l₁ with
  | nil =>
    rw [hl] at hturn
    exact ⟨a, ha, List.isChain_pair.1 hturn⟩
  | cons b l =>
    rw [hl] at hturn
    have hb : b ∈ l₂ ++ l₁ := hl ▸ List.mem_cons_self
    refine ⟨b, ?_, (List.isChain_cons_cons.1 hturn).1⟩
    rw [List.mem_append, List.mem_cons]
    rcases List.mem_append.1 hb with hb | hb
    · exact .inr (.inr hb)
    · exact .inl hb

/-! ## Shortest closed walks -/

/-- a closed walk that passes some member twice can be cut short between the two -/
theorem ClosedWalk.exists_shorter {c : List α} (h : ClosedWalk R c) (hc : ¬ c.Nodup) :
    ∃ d, ClosedWalk R d ∧ d.length < c.length := by
  obtain ⟨a, ha⟩ : ∃ a, [a, a].Sublist c := by simpa [List.nodup_iff_sublist] using hc
  obtain ⟨l₁, l₂, rfl, h₁, h₂⟩ := List.cons_sublist_iff.1 ha
  obtain ⟨p, q, rfl⟩ := List.append_of_mem h₁
  obtain ⟨s, t, rfl⟩ := List.append_of_mem (List.singleton_sublist.1 h₂)
  have hr : ClosedWalk R (a :: (q ++ (s ++ a :: t) ++ p)) := by
    rw [List.append_assoc] at h
    exact h.turn
  refine ⟨a :: (q ++ s), ?_, by simp; omega⟩
  rw [closedWalk_cons] at hr ⊢
  exact hr.prefix ⟨t ++ p ++ [a], by simp⟩

/-- a shortest closed walk -/
structure Shortest (R : α → α → Prop) (c : List α) : Prop where
  closed : ClosedWalk R c
  le : ∀ d, ClosedWalk R d → c.length ≤ d.length

theorem exists_shortest {c : List α} (h : ClosedWalk R c) : ∃ d, Shortest R d := by
  have hex : ∃ n, ∃ d, ClosedWalk R d ∧ d.length = n := ⟨c.length, c, h, rfl⟩
  classical
  obtain ⟨d, hd, hn⟩ := Nat.find_spec hex
  exact ⟨d, hd, fun d' hd' => hn ▸ Nat.find_min' hex ⟨d', hd', rfl⟩⟩

/-- a shortest closed walk is a cycle -/
theorem Shortest.isCycle {c : List α} (h : Shortest R c) : IsCycle R c := by
  refine ⟨h.closed, ?_⟩
  by_contra hc
  obtain ⟨d, hd, hlt⟩ := h.closed.exists_shorter hc
  exact absurd (h.le d hd) (by omega)

/-- there is a cycle as soon as some walk closes -/
theorem exists_isCycle_iff : (∃ c, IsCycle R c) ↔ ∃ c, ClosedWalk R c := by
  constructor
  · intro ⟨c, hc⟩
    exact ⟨c, hc.closed⟩
  · intro ⟨c, hc⟩
    obtain ⟨d, hd⟩ := exists_shortest hc
    exact ⟨d, hd.isCycle⟩

/-! ## Where a walk has to close -/

theorem exists_closedWalk_of_transGen {a : α} (h : Relation.TransGen R a a) : ∃ c, ClosedWalk R c := by
  obtain ⟨b, hab, hba⟩ := Relation.TransGen.tail'_iff.1 h
  obtain ⟨l, hl, hlast⟩ := List.exists_isChain_cons_of_relationReflTransGen hab
  refine ⟨a :: l, ?_⟩
  rw [closedWalk_cons, ← List.cons_append, List.isChain_append]
  refine ⟨hl, List.isChain_singleton a, fun x hx y hy => ?_⟩
  rw [List.getLast?_eq_getLast_of_ne_nil (List.cons_ne_nil a l), Option.mem_some_iff, hlast] at hx
  simp only [List.head?_cons, Option.mem_some_iff] at hy
  rwa [← hx, ← hy]

/-- walking back among finitely many things, of which each has a predecessor, comes to a thing for the second time -/
theorem exists_closedWalk_of_pred {U : Set α} (hfin : U.Finite) (hne : U.Nonempty)
    (hpred : ∀ a ∈ U, ∃ b ∈ U, R b a) : ∃ c, ClosedWalk R c := by
  by_contra hno
  have hirrefl : Std.Irrefl (Relation.TransGen R) := ⟨fun a ha => hno (exists_closedWalk_of_transGen ha)⟩
  have horder : IsStrictOrder α (Relation.TransGen R) := {}
  have hwf : U.WellFoundedOn (Relation.TransGen R) := hfin.wellFoundedOn
  -- a least member with respect to the walks would have no predecessor
  obtain ⟨a, ha⟩ := hne
  obtain ⟨m, -, hm⟩ := WellFounded.has_min hwf Set.univ ⟨⟨a, ha⟩, trivial⟩
  obtain ⟨b, hb, hbm⟩ := hpred m m.2
  exact hm ⟨b, hb⟩ trivial (Relation.TransGen.single hbm)

end MixinPlanner
