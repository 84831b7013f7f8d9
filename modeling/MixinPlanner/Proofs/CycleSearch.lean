/-
The search for a shortest cycle: what a round keeps, and which cycle is reported.

`Search.Inv` says how far the search from one start has come after `r` rounds: its walks have `r` links each, they end
wherever `r` links lead that fewer links do not, what has been seen is what at most `r` links lead to, and no closed walk
through the start is as short as that.

- `extendAll_ok`, `round_inv`: a round without a find keeps the invariant, one link further.
- `cycleThrough_some`, `cycleThrough_none`: what is found is a shortest closed walk from its start.
- `first_of_foldl_shorter`: the one that is kept is the shortest, and the first among those.
- `reported_cycle_least`: the reported cycle is a shortest of the whole graph, from the lowest position on any such.
-/
import Mathlib.Tactic
import MixinPlanner.Proofs.Placing

namespace MixinPlanner

namespace Search

variable {succ : ℕ → List ℕ} {start : ℕ}

/-! ## Walks from a start -/

/-- a walk from the start, written from its last position back -/
structure WalkFrom (succ : ℕ → List ℕ) (start : ℕ) (w : List ℕ) : Prop where
  chain : w.IsChain fun b a => b ∈ succ a
  start : w.getLast? = some start

/-- some walk with so many links leads from the start to a position -/
def Reaches (succ : ℕ → List ℕ) (start : ℕ) : ℕ → ℕ → Prop
  | 0, x => x = start
  | k + 1, y => ∃ x, Reaches succ start k x ∧ y ∈ succ x

theorem WalkFrom.cons {w : List ℕ} {x : ℕ} (h : WalkFrom succ start w) (hx : x ∈ succ (w.headD start)) :
    WalkFrom succ start (x :: w) := by
  obtain ⟨hchain, hstart⟩ := h
  cases w with
  | nil => simp at hstart
  | cons y w => exact ⟨List.isChain_cons_cons.2 ⟨hx, hchain⟩, by simpa using hstart⟩

theorem WalkFrom.reaches {w : List ℕ} {x : ℕ} (h : WalkFrom succ start (x :: w)) : Reaches succ start w.length x := by
  induction w generalizing x with
  | nil => simpa [Reaches] using h.start
  | cons y w ih =>
    obtain ⟨hxy, hchain⟩ := List.isChain_cons_cons.1 h.chain
    exact ⟨y, ih ⟨hchain, by simpa using h.start⟩, hxy⟩

theorem WalkFrom.closedWalk {w : List ℕ} (h : WalkFrom succ start w) (hback : start ∈ succ (w.headD start)) :
    ClosedWalk (fun i j => j ∈ succ i) w.reverse ∧ w.reverse.head? = some start := by
  have hhead : w.reverse.head? = some start := by rw [List.head?_reverse]; exact h.start
  obtain ⟨l, hl⟩ : ∃ l, w.reverse = start :: l := List.head?_eq_some_iff.1 hhead
  refine ⟨?_, hhead⟩
  have hchain : (start :: w).IsChain fun b a => b ∈ succ a := (h.cons hback).chain
  rw [hl, closedWalk_cons, ← List.cons_append, ← hl, ← List.reverse_cons, List.isChain_reverse]
  exact hchain

/-- the links of a walk, counted on from where it begins -/
theorem reaches_of_chain (l : List ℕ) (a b k : ℕ) (ha : Reaches succ start k a)
    (h : (a :: (l ++ [b])).IsChain fun i j => j ∈ succ i) : ∃ x, Reaches succ start (k + l.length) x ∧ b ∈ succ x := by
  induction l generalizing a k with
  | nil => exact ⟨a, ha, (List.isChain_cons_cons.1 h).1⟩
  | cons c l ih =>
    obtain ⟨hac, hchain⟩ := List.isChain_cons_cons.1 h
    obtain ⟨x, hx, hxb⟩ := ih c (k + 1) ⟨a, ha, hac⟩ hchain
    exact ⟨x, by rw [List.length_cons, ← Nat.add_assoc, Nat.add_right_comm]; exact hx, hxb⟩

theorem reaches_of_closedWalk {l : List ℕ} (h : ClosedWalk (fun i j => j ∈ succ i) (start :: l)) :
    ∃ x, Reaches succ start l.length x ∧ start ∈ succ x := by
  simpa using reaches_of_chain l start start 0 rfl ((closedWalk_cons start l).1 h)

/-! ## Extending walks -/

/-- what extending walks does: some walks are offered, and of those with one end the first is taken, unless that end
has been seen -/
structure Extended (offers : List (List ℕ)) (s s' : Search) : Prop where
  seen : ∀ x, x ∈ s'.seen ↔ x ∈ s.seen ∨ ∃ w ∈ offers, w.head? = some x
  kept : ∀ w ∈ s.walks, w ∈ s'.walks
  new : ∀ w ∈ s'.walks, w ∈ s.walks ∨ w ∈ offers
  taken : ∀ w ∈ offers, ∀ x, w.head? = some x → x ∈ s.seen ∨ ∃ w' ∈ s'.walks, w'.head? = some x

theorem Extended.refl (s : Search) : Extended [] s s := ⟨by simp, by simp, by simp, by simp⟩

theorem Extended.trans {offers offers' : List (List ℕ)} {s s' s'' : Search} (h : Extended offers s s')
    (h' : Extended offers' s' s'') : Extended (offers ++ offers') s s'' := by
  have hold : ∀ x, (∃ w ∈ s'.walks, w.head? = some x) → ∃ w ∈ s''.walks, w.head? = some x :=
    fun x ⟨w, hw, hx⟩ => ⟨w, h'.kept w hw, hx⟩
  refine ⟨fun x => ?_, fun w hw => h'.kept w (h.kept w hw), fun w hw => ?_, fun w hw x hx => ?_⟩
  · rw [h'.seen, h.seen]
    simp only [List.mem_append, or_and_right, exists_or, or_assoc]
  · rw [List.mem_append]
    rcases h'.new w hw with hw | hw
    · exact (h.new w hw).imp id .inl
    · exact .inr (.inr hw)
  · rcases List.mem_append.1 hw with hw | hw
    · exact (h.taken w hw x hx).imp id (hold x)
    · -- the end may have been seen since, for a walk that was offered and taken before
      rcases h'.taken w hw x hx with hseen | hx
      · rcases (h.seen x).1 hseen with hseen | ⟨v, hv, hvx⟩
        · exact .inl hseen
        · exact (h.taken v hv x hvx).imp id (hold x)
      · exact .inr hx

theorem extended_of_seen {s : Search} {x : ℕ} (w : List ℕ) (hx : x ∈ s.seen) : Extended [x :: w] s s :=
  ⟨by simp [hx], by simp, by simp +contextual, by simp [hx]⟩

theorem extended_of_new (s : Search) (x : ℕ) (w : List ℕ) :
    Extended [x :: w] s ⟨s.seen.insert x, (x :: w) :: s.walks⟩ := by
  refine ⟨fun y => ?_, fun v hv => List.mem_cons_of_mem _ hv, fun v hv => ?_, fun v hv y hy => ?_⟩
  · simp [or_comm, eq_comm]
  · simpa [or_comm] using hv
  · exact .inr ⟨v, by rw [List.mem_singleton.1 hv]; exact List.mem_cons_self, hy⟩

theorem extend_ok (w l : List ℕ) (s s' : Search) (h : extend start w s l = .ok s') :
    start ∉ l ∧ Extended (l.map (· :: w)) s s' := by
  induction l generalizing s with
  | nil =>
    simp only [extend, Except.ok.injEq] at h
    exact ⟨List.not_mem_nil, h ▸ .refl s⟩
  | cons i l ih =>
    simp only [extend] at h
    split_ifs at h with hi hseen
    · obtain ⟨hl, hext⟩ := ih s h
      exact ⟨by simp [Ne.symm hi, hl], (extended_of_seen w hseen).trans hext⟩
    · obtain ⟨hl, hext⟩ := ih _ h
      exact ⟨by simp [Ne.symm hi, hl], (extended_of_new s i w).trans hext⟩

theorem extend_error (w l : List ℕ) (s : Search) (found : List ℕ) (h : extend start w s l = .error found) :
    found = w ∧ start ∈ l := by
  induction l generalizing s with
  | nil => simp [extend] at h
  | cons i l ih =>
    simp only [extend] at h
    split_ifs at h with hi hseen
    · simp only [Except.error.injEq] at h
      exact ⟨h.symm, by simp [hi]⟩
    · exact (ih s h).imp id (List.mem_cons_of_mem i)
    · exact (ih _ h).imp id (List.mem_cons_of_mem i)

/-- the extensions of some walks by one link -/
def offers (start : ℕ) (succ : ℕ → List ℕ) (ws : List (List ℕ)) : List (List ℕ) :=
  ws.flatMap fun w => (succ (w.headD start)).map (· :: w)

theorem extendAll_ok (ws : List (List ℕ)) (s s' : Search) (h : extendAll start succ s ws = .ok s') :
    (∀ w ∈ ws, start ∉ succ (w.headD start)) ∧ Extended (offers start succ ws) s s' := by
  induction ws generalizing s with
  | nil =>
    simp only [extendAll, Except.ok.injEq] at h
    exact ⟨by simp, h ▸ .refl s⟩
  | cons w ws ih =>
    simp only [extendAll] at h
    split at h
    · exact absurd h (by simp)
    · next s₁ hs₁ =>
      obtain ⟨hw, hext⟩ := extend_ok w _ s s₁ hs₁
      obtain ⟨hws, hext'⟩ := ih s₁ h
      exact ⟨List.forall_mem_cons.2 ⟨hw, hws⟩, hext.trans hext'⟩

theorem extendAll_error (ws : List (List ℕ)) (s : Search) (found : List ℕ)
    (h : extendAll start succ s ws = .error found) : found ∈ ws ∧ start ∈ succ (found.headD start) := by
  induction ws generalizing s with
  | nil => simp [extendAll] at h
  | cons w ws ih =>
    simp only [extendAll] at h
    split at h
    · next f hf =>
      obtain ⟨rfl, hback⟩ := extend_error w _ s f hf
      simp only [Except.error.injEq] at h
      exact ⟨by simp [h], h ▸ hback⟩
    · next s₁ hs₁ => exact (ih s₁ h).imp (List.mem_cons_of_mem w) id

/-! ## Rounds -/

/-- how far a search has come after `r` rounds -/
structure Inv (succ : ℕ → List ℕ) (start r : ℕ) (s : Search) : Prop where
  walks : ∀ w ∈ s.walks, WalkFrom succ start w ∧ w.length = r + 1
  /-- the walks end wherever `r` links lead and fewer do not -/
  ends : ∀ x, Reaches succ start r x → (∃ w ∈ s.walks, w.head? = some x) ∨ ∃ k < r, Reaches succ start k x
  seen : ∀ x, x ∈ s.seen ↔ ∃ k ≤ r, Reaches succ start k x
  /-- nothing that fewer links lead to leads back -/
  notBack : ∀ k < r, ∀ x, Reaches succ start k x → start ∉ succ x

theorem search_inv : Inv succ start 0 ⟨Positions.empty.insert start, [[start]]⟩ := by
  refine ⟨?_, ?_, ?_, by simp⟩
  · intro w hw
    rw [List.mem_singleton.1 hw]
    exact ⟨⟨List.isChain_singleton start, rfl⟩, rfl⟩
  · intro x hx
    exact .inl ⟨[start], by simp, by simpa [Reaches, eq_comm] using hx⟩
  · intro x
    simp [Reaches]

theorem Inv.reaches_headD {s : Search} {r : ℕ} (h : Inv succ start r s) {w : List ℕ} (hw : w ∈ s.walks) :
    Reaches succ start r (w.headD start) := by
  obtain ⟨hwalk, hlen⟩ := h.walks w hw
  cases w with
  | nil => simp at hlen
  | cons x w =>
    obtain rfl : w.length = r := by simpa using hlen
    exact hwalk.reaches

/-- when no walk leads back, then nothing that up to `r` links lead to does -/
theorem Inv.notBack_succ {s : Search} {r : ℕ} (h : Inv succ start r s)
    (hws : ∀ w ∈ s.walks, start ∉ succ (w.headD start)) : ∀ k < r + 1, ∀ x, Reaches succ start k x → start ∉ succ x := by
  intro k hk x hx
  rcases Nat.lt_succ_iff_lt_or_eq.1 hk with hk | rfl
  · exact h.notBack k hk x hx
  · rcases h.ends x hx with ⟨w, hw, hwx⟩ | ⟨k, hk, hx⟩
    · have hback := hws w hw
      rwa [List.headD_eq_head?_getD, hwx] at hback
    · exact h.notBack k hk x hx

theorem mem_offers (ws : List (List ℕ)) (w : List ℕ) :
    w ∈ offers start succ ws ↔ ∃ v ∈ ws, ∃ x ∈ succ (v.headD start), w = x :: v := by
  simp [offers, eq_comm]

/-- after a round, the walks end wherever one link more leads and fewer do not -/
theorem Inv.ends_succ {s s' : Search} {r : ℕ} (h : Inv succ start r s)
    (hext : Extended (offers start succ s.walks.reverse) { s with walks := [] } s') (y : ℕ)
    (hy : Reaches succ start (r + 1) y) :
    (∃ w ∈ s'.walks, w.head? = some y) ∨ ∃ k < r + 1, Reaches succ start k y := by
  obtain ⟨x, hx, hxy⟩ := hy
  rcases h.ends x hx with ⟨w, hw, hwx⟩ | ⟨k, hk, hx⟩
  · have hy : y ∈ succ (w.headD start) := by rw [List.headD_eq_head?_getD, hwx]; exact hxy
    rcases hext.taken (y :: w) ((mem_offers ..).2 ⟨w, List.mem_reverse.2 hw, y, hy, rfl⟩) y rfl with hseen | htaken
    · obtain ⟨k, hk, hky⟩ := (h.seen y).1 hseen
      exact .inr ⟨k, by omega, hky⟩
    · exact .inl htaken
  · exact .inr ⟨k + 1, by omega, x, hx, hxy⟩

theorem round_inv {s s' : Search} {r : ℕ} (h : Inv succ start r s)
    (hround : extendAll start succ { s with walks := [] } s.walks.reverse = .ok s') : Inv succ start (r + 1) s' := by
  obtain ⟨hws, hext⟩ := extendAll_ok _ _ _ hround
  simp only [List.mem_reverse] at hws
  have hoffered : ∀ w ∈ s'.walks, w ∈ offers start succ s.walks.reverse := by
    intro w hw
    exact (hext.new w hw).resolve_left List.not_mem_nil
  refine ⟨?_, h.ends_succ hext, ?_, h.notBack_succ hws⟩
  · intro w hw
    obtain ⟨v, hv, x, hx, rfl⟩ := (mem_offers ..).1 (hoffered w hw)
    rw [List.mem_reverse] at hv
    obtain ⟨hwalk, hlen⟩ := h.walks v hv
    exact ⟨hwalk.cons hx, by rw [List.length_cons, hlen]⟩
  · intro y
    rw [hext.seen]
    constructor
    · intro hseen
      rcases hseen with hy | ⟨w, hw, hwy⟩
      · obtain ⟨k, hk, hky⟩ := (h.seen y).1 hy
        exact ⟨k, by omega, hky⟩
      · obtain ⟨v, hv, x, hx, rfl⟩ := (mem_offers ..).1 hw
        rw [List.mem_reverse] at hv
        obtain rfl : x = y := by simpa using hwy
        exact ⟨r + 1, le_rfl, _, h.reaches_headD hv, hx⟩
    · intro ⟨k, hk, hky⟩
      rcases Nat.le_succ_iff.1 hk with hk | rfl
      · exact .inl ((h.seen y).2 ⟨k, hk, hky⟩)
      · rcases h.ends_succ hext y hky with ⟨w, hw, hwy⟩ | ⟨k, hk, hky⟩
        · exact .inr ⟨w, hoffered w hw, hwy⟩
        · exact .inl ((h.seen y).2 ⟨k, by omega, hky⟩)

/-- what a search finds is a closed walk from its start, with no shorter one -/
theorem run_some (rounds r : ℕ) (s : Search) (h : Inv succ start r s) (c : List ℕ)
    (hc : run start succ rounds s = some c) :
    ClosedWalk (fun i j => j ∈ succ i) c ∧ c.head? = some start ∧
      ∀ k, k + 1 < c.length → ∀ x, Reaches succ start k x → start ∉ succ x := by
  induction rounds generalizing r s with
  | zero => simp [run] at hc
  | succ rounds ih =>
    simp only [run] at hc
    split at hc
    · next found hfound =>
      obtain ⟨hmem, hback⟩ := extendAll_error _ _ _ hfound
      obtain ⟨hwalk, hlen⟩ := h.walks found (List.mem_reverse.1 hmem)
      obtain ⟨hclosed, hhead⟩ := hwalk.closedWalk hback
      obtain rfl : found.reverse = c := by simpa using hc
      exact ⟨hclosed, hhead, fun k hk => h.notBack k (by rw [List.length_reverse] at hk; omega)⟩
    · next s' hs' => exact ih (r + 1) s' (round_inv h hs') hc

/-- where a search finds nothing, nothing leads back within its rounds -/
theorem run_none (rounds r : ℕ) (s : Search) (h : Inv succ start r s) (hc : run start succ rounds s = none) :
    ∀ k < r + rounds, ∀ x, Reaches succ start k x → start ∉ succ x := by
  induction rounds generalizing r s with
  | zero => exact h.notBack
  | succ rounds ih =>
    simp only [run] at hc
    split at hc
    · simp at hc
    · next s' hs' =>
      have hrest := ih (r + 1) s' (round_inv h hs') hc
      exact fun k hk => hrest k (by omega)

theorem cycleThrough_some (count : ℕ) (c : List ℕ) (hc : cycleThrough count succ start = some c) :
    ClosedWalk (fun i j => j ∈ succ i) c ∧ c.head? = some start ∧
      ∀ l, ClosedWalk (fun i j => j ∈ succ i) (start :: l) → c.length ≤ (start :: l).length := by
  obtain ⟨hclosed, hhead, hmin⟩ := run_some count 0 _ search_inv c hc
  refine ⟨hclosed, hhead, fun l hl => ?_⟩
  by_contra hlt
  obtain ⟨x, hx, hback⟩ := reaches_of_closedWalk hl
  exact hmin l.length (by simpa using hlt) x hx hback

theorem cycleThrough_none (count : ℕ) (hc : cycleThrough count succ start = none) (l : List ℕ)
    (hl : ClosedWalk (fun i j => j ∈ succ i) (start :: l)) : count < (start :: l).length := by
  by_contra hle
  obtain ⟨x, hx, hback⟩ := reaches_of_closedWalk hl
  exact run_none count 0 _ search_inv hc l.length (by simp at hle; omega) x hx hback

end Search

/-! ## Which one is kept -/

/-- the first shortest of the cycles that some starts have -/
structure First (cycleOf : ℕ → Option (List ℕ)) (starts : List ℕ) (i : ℕ) (c : List ℕ) : Prop where
  mem : i ∈ starts
  eq : cycleOf i = some c
  le : ∀ j ∈ starts, ∀ d, cycleOf j = some d → c.length < d.length ∨ (c.length = d.length ∧ i ≤ j)

theorem First.keep {cycleOf : ℕ → Option (List ℕ)} {starts : List ℕ} {i k : ℕ} {c : List ℕ}
    (h : First cycleOf starts i c) (hk : i ≤ k) (hle : ∀ d, cycleOf k = some d → c.length ≤ d.length) :
    First cycleOf (starts ++ [k]) i c := by
  refine ⟨List.mem_append_left _ h.mem, h.eq, fun j hj d hd => ?_⟩
  rcases List.mem_append.1 hj with hj | hj
  · exact h.le j hj d hd
  · rw [List.mem_singleton.1 hj] at hd ⊢
    exact (hle d hd).lt_or_eq.imp id fun he => ⟨he, hk⟩

theorem First.replace {cycleOf : ℕ → Option (List ℕ)} {starts : List ℕ} {k : ℕ} {d : List ℕ} (hk : cycleOf k = some d)
    (hlt : ∀ j ∈ starts, ∀ e, cycleOf j = some e → d.length < e.length) : First cycleOf (starts ++ [k]) k d := by
  refine ⟨by simp, hk, fun j hj e he => ?_⟩
  rcases List.mem_append.1 hj with hj | hj
  · exact .inl (hlt j hj e he)
  · rw [List.mem_singleton.1 hj] at he ⊢
    obtain rfl : d = e := by simpa [hk] using he
    exact .inr ⟨rfl, le_rfl⟩

/-- going through ascending starts and keeping the shorter cycle comes to the first shortest. Induction from the end:
only the last start can change what was kept before. -/
theorem first_of_foldl_shorter (cycleOf : ℕ → Option (List ℕ)) (starts : List ℕ) (hs : starts.Pairwise (· < ·)) :
    match starts.foldl (fun best i => shorter best (cycleOf i)) none with
    | none => ∀ i ∈ starts, cycleOf i = none
    | some c => ∃ i, First cycleOf starts i c := by
  induction starts using List.reverseRecOn with
  | nil => simp
  | append_singleton starts k ih =>
    obtain ⟨hs, -, hk⟩ := List.pairwise_append.1 hs
    have ih := ih hs
    rw [List.foldl_append, List.foldl_cons, List.foldl_nil]
    cases hbest : starts.foldl (fun best i => shorter best (cycleOf i)) none with
    | none =>
      rw [hbest] at ih
      cases hck : cycleOf k with
      | none => simpa [shorter, or_imp, forall_and, hck] using ih
      | some d => exact ⟨k, .replace hck fun j hj e he => by simp [ih j hj] at he⟩
    | some c =>
      rw [hbest] at ih
      obtain ⟨i, hi⟩ := ih
      have hik : i ≤ k := (hk i hi.mem k (List.mem_singleton.2 rfl)).le
      cases hck : cycleOf k with
      | none => exact ⟨i, hi.keep hik (by simp [hck])⟩
      | some d =>
        simp only [shorter]
        split_ifs with hlt
        · refine ⟨k, .replace hck fun j hj e he => ?_⟩
          rcases hi.le j hj e he with h | ⟨h, -⟩ <;> omega
        · refine ⟨i, hi.keep hik fun e he => ?_⟩
          obtain rfl : d = e := by simpa [hck] using he
          omega

theorem turned_of_head_le (i : ℕ) (l : List ℕ) (h : ∀ j ∈ i :: l, i ≤ j) : turned (i :: l) = i :: l := by
  have hmin : (i :: l).min? = some i := List.min?_eq_some_iff.2 ⟨List.mem_cons_self, h⟩
  simp [turned, hmin]

/-! ## The reported cycle -/

namespace DependencyGraph

open Placement

theorem mem_left {g : DependencyGraph} (hg : g.Linked) (i : ℕ) : i ∈ g.left ↔ i < g.size ∧ i ∉ g.placed := by
  simp only [left, List.mem_filter, List.mem_range, decide_eq_true_eq]
  exact and_congr_right fun hi => finish_pending hg.adjacency i hi

/-- every closed walk of the graph stays among the positions that are left over -/
theorem mem_left_of_closedWalk {g : DependencyGraph} (hg : g.Linked) {c : List ℕ} (hc : ClosedWalk g.Leads c) {i : ℕ}
    (hi : i ∈ c) : i ∈ g.left := by
  obtain ⟨j, -, hij⟩ := hc.exists_next hi
  rw [leads_eq] at hc
  exact (mem_left hg i).2 ⟨(hg.leads hij).2.1, not_placed_of_closedWalk hg.adjacency hc hi⟩

/-- the links among the positions that are left over -/
def within (g : DependencyGraph) (i : ℕ) : List ℕ := (g.successors i).filter (· ∈ g.left)

/-- among the positions that are left over, the closed walks are those of the whole graph -/
theorem closedWalk_within {g : DependencyGraph} (hg : g.Linked) (c : List ℕ) :
    ClosedWalk (fun i j => j ∈ g.within i) c ↔ ClosedWalk g.Leads c := by
  constructor
  · intro hc
    refine hc.imp fun i _ j _ hij => ?_
    exact (mem_successors g i j).1 (List.mem_filter.1 hij).1
  · intro hc
    refine hc.imp fun i _ j hj hij => ?_
    exact List.mem_filter.2 ⟨(mem_successors g i j).2 hij, by simpa using mem_left_of_closedWalk hg hc hj⟩

theorem shortestCycle_eq (g : DependencyGraph) :
    shortestCycle g.size g.successors g.left = turned ((g.left.foldl
      (fun best i => shorter best (Search.cycleThrough g.size g.within i)) none).getD []) := by
  simp only [shortestCycle, Tabulated.get_eq, Positions.mem_ofList]
  rfl

/-- from each position on a shortest closed walk, the search finds one that is as short -/
theorem cycleThrough_of_shortest {g : DependencyGraph} (hg : g.Linked) {m : List ℕ} (hm : Shortest g.Leads m) {j : ℕ}
    (hj : j ∈ m) : ∃ e, Search.cycleThrough g.size g.within j = some e ∧ e.length = m.length := by
  obtain ⟨l, hl, hlen⟩ := hm.closed.exists_from hj
  have hl' := (closedWalk_within hg _).2 hl
  have hsize : m.length ≤ g.size :=
    (length_of_nodup_lt hm.isCycle.nodup fun i hi => ((mem_left hg i).1 (mem_left_of_closedWalk hg hm.closed hi)).1).1
  cases he : Search.cycleThrough g.size g.within j with
  | none =>
    have hlong := Search.cycleThrough_none g.size he l hl'
    omega
  | some e =>
    obtain ⟨hclosed, -, hmin⟩ := Search.cycleThrough_some g.size e he
    have hle := hm.le e ((closedWalk_within hg e).1 hclosed)
    have hge := hmin l hl'
    exact ⟨e, rfl, by omega⟩

/-- the search comes to a shortest closed walk of the graph, and to the lowest position on any such -/
theorem shortestCycle_spec {g : DependencyGraph} (hg : g.Linked) (hc : ∃ d, ClosedWalk g.Leads d) :
    ∃ i l, shortestCycle g.size g.successors g.left = i :: l ∧ Shortest g.Leads (i :: l) ∧
      ∀ d, Shortest g.Leads d → ∀ j ∈ d, i ≤ j := by
  obtain ⟨d, hd⟩ := hc
  obtain ⟨m, hm⟩ := exists_shortest hd
  obtain ⟨j, hj⟩ := List.exists_mem_of_ne_nil m hm.closed.1
  obtain ⟨e, he, hlen⟩ := cycleThrough_of_shortest hg hm hj
  have hfirst := first_of_foldl_shorter (Search.cycleThrough g.size g.within) g.left (List.pairwise_lt_range.filter _)
  rw [shortestCycle_eq]
  cases hbest : g.left.foldl (fun best i => shorter best (Search.cycleThrough g.size g.within i)) none with
  | none =>
    rw [hbest] at hfirst
    simp [hfirst j (mem_left_of_closedWalk hg hm.closed hj)] at he
  | some c =>
    rw [hbest] at hfirst
    obtain ⟨i, hi⟩ := hfirst
    obtain ⟨hclosed, hhead, -⟩ := Search.cycleThrough_some g.size c hi.eq
    obtain ⟨l, rfl⟩ := List.head?_eq_some_iff.1 hhead
    have hshort : Shortest g.Leads (i :: l) := by
      refine ⟨(closedWalk_within hg _).1 hclosed, fun d' hd' => ?_⟩
      have hmd := hm.le d' hd'
      rcases hi.le j (mem_left_of_closedWalk hg hm.closed hj) e he with h | ⟨h, -⟩ <;> omega
    have hlow : ∀ d, Shortest g.Leads d → ∀ k ∈ d, i ≤ k := by
      intro d' hd' k hk
      obtain ⟨e', he', hlen'⟩ := cycleThrough_of_shortest hg hd' hk
      have hle := hd'.le _ hshort.closed
      rcases hi.le k (mem_left_of_closedWalk hg hd'.closed hk) e' he' with h | ⟨-, h⟩
      · omega
      · exact h
    exact ⟨i, l, by rw [Option.getD_some, turned_of_head_le i l (hlow _ hshort)], hshort, hlow⟩

/-- **The reported cycle is a shortest of the whole graph.** In a graph with a cycle no order is found; what is
reported in its place passes no position twice, each leading to the next and the last to the first, no closed walk of
the graph is shorter, and it begins with the lowest position that lies on any cycle as short. -/
theorem reported_cycle_least (g : DependencyGraph) (hg : g.Built) (hc : ∃ d, IsCycle g.Leads d) :
    ∃ c ms, g.positionOrder = .error c ∧ g.order = .error ms ∧ ms.map some = c.map (g.nodes[·]?) ∧
      IsCycle g.Leads c ∧ (∀ d, ClosedWalk g.Leads d → c.length ≤ d.length) ∧
      ∃ i, c.head? = some i ∧ IsLeast {j | ∃ d, IsCycle g.Leads d ∧ d.length = c.length ∧ j ∈ d} i := by
  have hlinked := hg.linked
  have hclosed : ∃ d, ClosedWalk g.Leads d := exists_isCycle_iff.1 hc
  obtain ⟨i, l, heq, hshort, hlow⟩ := shortestCycle_spec hlinked hclosed
  have hpositions : g.positionOrder = .error (i :: l) := by
    have hnot : ¬ g.placed.length = g.size := fun hlen => by
      obtain ⟨d, hd⟩ := hclosed
      exact (placed_all_iff hlinked).1 hlen d hd
    rw [positionOrder_eq, if_neg hnot, heq]
  refine ⟨i :: l, g.mixinsAt (i :: l), hpositions, (order_error_iff g _).2 ⟨_, hpositions, rfl⟩, ?_, hshort.isCycle,
    hshort.le, i, rfl, ⟨i :: l, hshort.isCycle, rfl, List.mem_cons_self⟩, ?_⟩
  · exact mixinsAt_map_some g _ fun j hj => ((mem_left hlinked j).1 (mem_left_of_closedWalk hlinked hshort.closed hj)).1
  · intro j ⟨d, hd, hlen, hj⟩
    exact hlow d ⟨hd.closed, fun d' hd' => hlen ▸ hshort.le d' hd'⟩ j hj

/-- a circle of three mixins with a circle of two within, and a mixin that leads into both -/
def nestedCycles : DependencyGraph :=
  ofPairs ⟨"T", []⟩ [⟨"A", []⟩, ⟨"B", []⟩, ⟨"C", []⟩, ⟨"D", []⟩] [(0, 1), (1, 2), (2, 0), (2, 1), (3, 0)]

/-- the circle of two is reported, although the search comes to the circle of three first -/
theorem nestedCycles_report : nestedCycles.Built ∧ (∃ d, IsCycle nestedCycles.Leads d) ∧
    nestedCycles.order = .error [⟨"B", []⟩, ⟨"C", []⟩] ∧ ∀ d, ClosedWalk nestedCycles.Leads d → 2 ≤ d.length := by
  have hbuilt : nestedCycles.Built := .ofPairs _ _ _
  have hcycle : IsCycle nestedCycles.Leads [2, 0, 1] := ⟨⟨by simp, by decide⟩, by decide⟩
  have hpositions : nestedCycles.positionOrder = .error [1, 2] := by rfl
  obtain ⟨c, ms, hc, -, -, -, hle, -⟩ := reported_cycle_least nestedCycles hbuilt ⟨_, hcycle⟩
  obtain rfl : [1, 2] = c := by simpa [hpositions] using hc
  exact ⟨hbuilt, ⟨_, hcycle⟩, by rfl, hle⟩

end DependencyGraph

end MixinPlanner
