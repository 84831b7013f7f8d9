/-
Placing free nodes, the lowest first: what the loop keeps, and which order it finds.

`Placement.Inv` ties the three parts of the state together. For every node the counter says how many unplaced nodes lead to
it, the ready positions are the unplaced nodes whose counter is at zero, in ascending order, and every placed node was the
lowest free one when its turn came (`Greedy`). Between two placings some of the nodes that the placed one leads to are
still to be released; the invariant counts these in.

- `release_inv`, `step_inv`, `run_inv`: every step keeps the invariant; `Inv.release_pos`: no counter is taken below zero.
- `finish_not_free`: the loop ends with nothing free, and `exists_closedWalk_of_left`: what is left has a cycle.
- `Greedy.isLeast`: an order that always takes the lowest free node is the least of all orders.
- `order_least_unless_cyclic`: what this says about the order of a graph.
-/
import Mathlib.Tactic
import MixinPlanner.Dependency.Ordering
import MixinPlanner.Proofs.Linking
import MixinPlanner.Proofs.Walks

namespace MixinPlanner

/-! ## Orders -/

/-- one thing stands in a list before another -/
def Precedes {α : Type} (l : List α) (a b : α) : Prop := [a, b].Sublist l

theorem precedes_of_mem {α : Type} {l₁ l₂ : List α} {a b : α} (ha : a ∈ l₁) : Precedes (l₁ ++ b :: l₂) a b :=
  (List.singleton_sublist.2 ha).append (List.singleton_sublist.2 List.mem_cons_self)

theorem Precedes.mem_of_nodup {α : Type} {l₁ l₂ : List α} {a b : α} (h : Precedes (l₁ ++ b :: l₂) a b)
    (hn : (l₁ ++ b :: l₂).Nodup) : a ∈ l₁ := by
  obtain ⟨-, hb, hdis⟩ := List.nodup_append.1 hn
  obtain ⟨r₁, r₂, hr, ha, hb₂⟩ := List.cons_sublist_iff.1 h
  rw [List.singleton_sublist] at hb₂
  rcases List.append_eq_append_iff.1 hr with ⟨s, rfl, hs⟩ | ⟨s, rfl, rfl⟩
  · -- `b` comes a second time: within what follows its place
    cases s with
    | nil => simpa using ha
    | cons c s =>
      obtain ⟨rfl, rfl⟩ := List.cons.inj hs
      exact absurd (List.mem_append_right s hb₂) (List.nodup_cons.1 hb).1
  · exact List.mem_append_left s ha

theorem Precedes.filterMap {α β : Type} (f : α → Option β) {l : List α} {a b : α} {x y : β} (h : Precedes l a b)
    (ha : f a = some x) (hb : f b = some y) : Precedes (l.filterMap f) x y := by
  simpa [Precedes, ha, hb] using List.Sublist.filterMap f h

theorem Precedes.ne {α : Type} {l : List α} {a b : α} (h : Precedes l a b) (hn : l.Nodup) : a ≠ b := by
  have hpair : [a, b].Nodup := hn.sublist h
  simpa using hpair

/-- an order of the positions below `n`: each once, and before those that it leads to -/
structure IsOrder (n : ℕ) (R : ℕ → ℕ → Prop) (ps : List ℕ) : Prop where
  perm : ps.Perm (List.range n)
  precedes : ∀ i j, R i j → Precedes ps i j

theorem IsOrder.nodup {n : ℕ} {R : ℕ → ℕ → Prop} {ps : List ℕ} (h : IsOrder n R ps) : ps.Nodup :=
  h.perm.nodup_iff.2 List.nodup_range

theorem Precedes.idxOf_lt {ps : List ℕ} {i j : ℕ} (h : Precedes ps i j) (hn : ps.Nodup) : ps.idxOf i < ps.idxOf j := by
  obtain ⟨r₁, r₂, rfl, hi, hj⟩ := List.cons_sublist_iff.1 h
  rw [List.singleton_sublist] at hj
  have hj₁ : j ∉ r₁ := fun hj₁ => (List.nodup_append.1 hn).2.2 j hj₁ j hj rfl
  rw [List.idxOf_append_of_mem hi, List.idxOf_append_of_notMem hj₁]
  have := List.idxOf_lt_length_of_mem hi
  omega

/-- standing one before another does not go round in a circle -/
theorem not_closedWalk_precedes {ps : List ℕ} (hn : ps.Nodup) (c : List ℕ) : ¬ ClosedWalk (Precedes ps) c := by
  intro hc
  obtain ⟨hne, hchain⟩ := (closedWalk_iff_chain c).1 hc
  have hlt : Cycle.Chain (· < ·) ((c : Cycle ℕ).map ps.idxOf) :=
    (Cycle.chain_map ps.idxOf).2 (hchain.imp fun i j hij => hij.idxOf_lt hn)
  have hnil := hlt.eq_nil_of_irrefl
  simp only [Cycle.map_coe, Cycle.coe_eq_nil, List.map_eq_nil_iff] at hnil
  exact hne hnil

theorem IsOrder.not_closedWalk {n : ℕ} {R : ℕ → ℕ → Prop} {ps : List ℕ} (h : IsOrder n R ps) (c : List ℕ) :
    ¬ ClosedWalk R c :=
  fun hc => not_closedWalk_precedes h.nodup c (hc.imp fun i _ j _ => h.precedes i j)

namespace Placement

variable {n : ℕ} {succ : ℕ → List ℕ}

/-! ## Free nodes -/

/-- what the lists of successors of a graph keep: no position twice, and links join positions below `n` -/
structure Adjacency (n : ℕ) (succ : ℕ → List ℕ) : Prop where
  nodup : ∀ i, (succ i).Nodup
  lt : ∀ i, ∀ j ∈ succ i, i < n ∧ j < n

/-- a node that may be placed after some others: all that lead to it are among these -/
structure Free (n : ℕ) (succ : ℕ → List ℕ) (placed : List ℕ) (i : ℕ) : Prop where
  lt : i < n
  fresh : i ∉ placed
  preds : ∀ j, i ∈ succ j → j ∈ placed

/-- each member was the lowest free node when its turn came -/
def Greedy (n : ℕ) (succ : ℕ → List ℕ) (ps : List ℕ) : Prop :=
  ∀ a i, a ++ [i] <+: ps → IsLeast {j | Free n succ a j} i

theorem greedy_nil : Greedy n succ [] := fun a i h => by simp at h

theorem greedy_snoc (ps : List ℕ) (i : ℕ) :
    Greedy n succ (ps ++ [i]) ↔ Greedy n succ ps ∧ IsLeast {j | Free n succ ps j} i := by
  constructor
  · intro h
    exact ⟨fun a j ha => h a j (ha.trans (List.prefix_append ps [i])), h ps i (List.prefix_refl _)⟩
  · intro ⟨h, hi⟩ a j ha
    rcases List.prefix_concat_iff.1 ha with he | ha
    · obtain ⟨rfl, hj⟩ := List.append_inj' he rfl
      obtain rfl : j = i := by simpa using hj
      exact hi
    · exact h a j ha

theorem Greedy.lt_and_nodup {ps : List ℕ} (h : Greedy n succ ps) : (∀ i ∈ ps, i < n) ∧ ps.Nodup := by
  induction ps using List.reverseRecOn with
  | nil => simp
  | append_singleton ps i ih =>
    obtain ⟨hps, hi, -⟩ := (greedy_snoc ps i).1 h
    obtain ⟨hlt, hn⟩ := ih hps
    refine ⟨fun j hj => ?_, ?_⟩
    · rcases List.mem_append.1 hj with hj | hj
      · exact hlt j hj
      · rw [List.mem_singleton.1 hj]; exact hi.lt
    · refine List.nodup_append.2 ⟨hn, List.nodup_singleton i, fun j hj k hk => ?_⟩
      rw [List.mem_singleton.1 hk]
      rintro rfl
      exact hi.fresh hj

/-- a placed node stands after all that lead to it -/
theorem Greedy.precedes {ps : List ℕ} (h : Greedy n succ ps) {i j : ℕ} (hij : j ∈ succ i) (hj : j ∈ ps) :
    Precedes ps i j := by
  induction ps using List.reverseRecOn with
  | nil => simp at hj
  | append_singleton ps k ih =>
    obtain ⟨hps, hk, -⟩ := (greedy_snoc ps k).1 h
    rcases List.mem_append.1 hj with hj | hj
    · exact (ih hps hj).trans (List.sublist_append_left ps [k])
    · rw [List.mem_singleton.1 hj] at hij ⊢
      exact precedes_of_mem (hk.preds i hij)

theorem Greedy.pred_mem {ps : List ℕ} (h : Greedy n succ ps) {i j : ℕ} (hij : j ∈ succ i) (hj : j ∈ ps) : i ∈ ps :=
  (h.precedes hij hj).subset List.mem_cons_self

/-! ## The least order -/

/-- in any order, the node after a prefix is free after that prefix -/
theorem free_of_isOrder {a qs : List ℕ} {x : ℕ} (h : IsOrder n (fun i j => j ∈ succ i) (a ++ x :: qs)) :
    Free n succ a x where
  lt := by simpa using h.perm.subset (List.mem_append_right a List.mem_cons_self)
  fresh hx := (List.nodup_append.1 h.nodup).2.2 x hx x List.mem_cons_self rfl
  preds j hj := (h.precedes j x hj).mem_of_nodup h.nodup

/-- two continuations of one prefix: the greedy one comes first. Induction on the continuations, as long as they agree. -/
theorem le_of_greedy (a ps qs : List ℕ) (hp : Greedy n succ (a ++ ps)) (hlen : ps.length = qs.length)
    (hq : IsOrder n (fun i j => j ∈ succ i) (a ++ qs)) : ps ≤ qs := by
  induction ps generalizing a qs with
  | nil =>
    obtain rfl : qs = [] := List.length_eq_zero_iff.1 hlen.symm
    exact le_rfl
  | cons i ps ih =>
    cases qs with
    | nil => simp at hlen
    | cons x qs =>
      have hi : IsLeast {j | Free n succ a j} i := hp a i ⟨ps, by simp⟩
      rcases (hi.2 (free_of_isOrder hq)).lt_or_eq with hlt | rfl
      · exact le_of_lt (List.Lex.rel hlt)
      · refine List.cons_le_cons i (ih (a ++ [i]) qs ?_ (by simpa using hlen) ?_)
        · simpa using hp
        · simpa using hq

/-- **The greedy order is the least.** A list that takes the lowest free node each time, until all are taken, is an
order, and comes first among all orders. -/
theorem Greedy.isLeast {ps : List ℕ} (hA : Adjacency n succ) (h : Greedy n succ ps) (hlen : ps.length = n) :
    IsLeast {qs | IsOrder n (fun i j => j ∈ succ i) qs} ps := by
  obtain ⟨hlt, hn⟩ := h.lt_and_nodup
  have hperm : ps.Perm (List.range n) :=
    (hn.subperm fun i hi => List.mem_range.2 (hlt i hi)).perm_of_length_le (by simp [hlen])
  refine ⟨⟨hperm, fun i j hij => h.precedes hij (hperm.mem_iff.2 (List.mem_range.2 (hA.lt i j hij).2))⟩, ?_⟩
  intro qs hq
  exact le_of_greedy [] ps qs h (by simp [hlen, hq.perm.length_eq]) hq

/-! ## The invariant of the loop -/

/-- the number of unplaced nodes that lead to a node -/
def waiting (n : ℕ) (succ : ℕ → List ℕ) (placed : List ℕ) (j : ℕ) : ℕ :=
  ((Finset.range n).filter fun i => i ∉ placed ∧ j ∈ succ i).card

theorem waiting_eq_zero (hA : Adjacency n succ) (placed : List ℕ) (j : ℕ) :
    waiting n succ placed j = 0 ↔ ∀ i, j ∈ succ i → i ∈ placed := by
  simp only [waiting, Finset.card_eq_zero, Finset.filter_eq_empty_iff, Finset.mem_range, not_and, not_imp_not]
  exact ⟨fun h i hij => h (hA.lt i j hij).1 hij, fun h i _ hij => h i hij⟩

/-- placing a node takes it off the count of every node that it leads to -/
theorem waiting_snoc (hA : Adjacency n succ) (placed : List ℕ) (i j : ℕ) (hlt : i < n) (hi : i ∉ placed) :
    waiting n succ placed j = waiting n succ (placed ++ [i]) j + (succ i).count j := by
  have hset : ((Finset.range n).filter fun k => k ∉ placed ++ [i] ∧ j ∈ succ k) =
      ((Finset.range n).filter fun k => k ∉ placed ∧ j ∈ succ k).erase i := by
    ext k; simp only [Finset.mem_filter, Finset.mem_erase, List.mem_append, List.mem_singleton]; tauto
  simp only [waiting, hset, (hA.nodup i).count]
  split_ifs with hj
  · have hmem : i ∈ (Finset.range n).filter fun k => k ∉ placed ∧ j ∈ succ k := by simp [hlt, hi, hj]
    rw [Finset.card_erase_add_one hmem]
  · rw [Finset.erase_eq_of_notMem (by simp [hj]), Nat.add_zero]

/-- what the loop keeps, with the nodes in `todo` still to be released -/
structure Inv (n : ℕ) (succ : ℕ → List ℕ) (todo : List ℕ) (p : Placement) : Prop where
  length : p.pending.length = n
  /-- a counter says how many unplaced nodes lead to its node, and counts a node that is still to be released once more -/
  pending : ∀ j < n, p.pending.getD j 0 = waiting n succ p.placed j + todo.count j
  /-- ready positions ascend, so each is waiting once -/
  sorted : p.ready.Pairwise (· < ·)
  ready : ∀ j, j ∈ p.ready ↔ j < n ∧ j ∉ p.placed ∧ p.pending.getD j 0 = 0
  greedy : Greedy n succ p.placed
  todo_nodup : todo.Nodup
  todo_fresh : ∀ j ∈ todo, j < n ∧ j ∉ p.placed

theorem Inv.ready_iff_free {p : Placement} (hA : Adjacency n succ) (h : Inv n succ [] p) (j : ℕ) :
    j ∈ p.ready ↔ Free n succ p.placed j := by
  rw [h.ready]
  constructor
  · intro ⟨hlt, hj, h0⟩
    rw [h.pending j hlt, List.count_nil, Nat.add_zero, waiting_eq_zero hA] at h0
    exact ⟨hlt, hj, h0⟩
  · intro ⟨hlt, hj, hpreds⟩
    rw [h.pending j hlt, List.count_nil, Nat.add_zero, waiting_eq_zero hA]
    exact ⟨hlt, hj, hpreds⟩

/-! ### The start -/

theorem count_all (hA : Adjacency n succ) (j : ℕ) :
    ((List.range n).flatMap succ).count j = waiting n succ [] j := by
  have hcount : (List.count j ∘ succ) = fun i => if j ∈ succ i then 1 else 0 := by
    funext i; simp [(hA.nodup i).count]
  rw [List.count_flatMap, hcount, waiting, Finset.card_filter]
  simp only [List.not_mem_nil, not_false_eq_true, true_and]
  rfl

theorem start_inv (hA : Adjacency n succ) : Inv n succ [] (start n succ) := by
  have hpending : ∀ j < n, (start n succ).pending.getD j 0 = waiting n succ [] j := by
    intro j hj
    simp [start, hj, count_all hA]
  refine ⟨by simp [start], fun j hj => by simpa [start] using hpending j hj, ?_, fun j => ?_, greedy_nil, .nil,
    by simp⟩
  · exact List.pairwise_lt_range.filter _
  · have hplaced : (start n succ).placed = [] := rfl
    simp only [hplaced, List.not_mem_nil, not_false_eq_true, true_and]
    by_cases hj : j < n
    · rw [hpending j hj]
      simp [start, hj, count_all hA]
    · simp [start, hj]

/-! ### Releasing -/

theorem mem_queue (i j : ℕ) (l : List ℕ) : j ∈ queue i l ↔ j = i ∨ j ∈ l := by
  induction l with
  | nil => simp [queue]
  | cons k l ih =>
    simp only [queue]
    split_ifs
    · simp
    · simp only [List.mem_cons, ih]; tauto

theorem queue_sorted (i : ℕ) (l : List ℕ) (hl : l.Pairwise (· < ·)) (hi : i ∉ l) : (queue i l).Pairwise (· < ·) := by
  induction l with
  | nil => simp [queue]
  | cons k l ih =>
    obtain ⟨hk, hl'⟩ := List.pairwise_cons.1 hl
    simp only [List.mem_cons, not_or] at hi
    simp only [queue]
    split_ifs with hik
    · have hlt : i < k := lt_of_le_of_ne hik hi.1
      refine List.pairwise_cons.2 ⟨fun j hj => ?_, hl⟩
      rcases List.mem_cons.1 hj with rfl | hj
      · exact hlt
      · exact hlt.trans (hk j hj)
    · refine List.pairwise_cons.2 ⟨fun j hj => ?_, ih hl' hi.2⟩
      rcases (mem_queue i j l).1 hj with rfl | hj
      · omega
      · exact hk j hj

/-- no counter is taken below zero -/
theorem Inv.release_pos {p : Placement} {j : ℕ} {todo : List ℕ} (h : Inv n succ (j :: todo) p) :
    0 < p.pending.getD j 0 := by
  rw [h.pending j (h.todo_fresh j List.mem_cons_self).1, List.count_cons_self]
  omega

theorem getD_set (l : List ℕ) (i j v : ℕ) (hi : i < l.length) :
    (l.set i v).getD j 0 = if i = j then v else l.getD j 0 := by
  simp only [List.getD_eq_getElem?_getD, List.getElem?_set, hi, if_true]
  split_ifs <;> rfl

theorem release_pending (p : Placement) (j k : ℕ) (hj : j < p.pending.length) :
    (p.release j).pending.getD k 0 = if j = k then p.pending.getD j 0 - 1 else p.pending.getD k 0 :=
  getD_set p.pending j k _ hj

theorem mem_release_ready (p : Placement) (j k : ℕ) :
    k ∈ (p.release j).ready ↔ k ∈ p.ready ∨ (k = j ∧ p.pending.getD j 0 - 1 = 0) := by
  simp only [release]
  split_ifs with h0
  · rw [mem_queue]; tauto
  · tauto

theorem release_inv {p : Placement} {j : ℕ} {todo : List ℕ} (h : Inv n succ (j :: todo) p) :
    Inv n succ todo (p.release j) := by
  obtain ⟨hjn, hjp⟩ := h.todo_fresh j List.mem_cons_self
  obtain ⟨hjt, htodo⟩ := List.nodup_cons.1 h.todo_nodup
  have hpos := h.release_pos
  have hpending := fun k => release_pending p j k (by rw [h.length]; exact hjn)
  have hplaced : (p.release j).placed = p.placed := rfl
  refine ⟨by simp [release, h.length], ?_, ?_, ?_, h.greedy, htodo, ?_⟩
  · intro k hk
    have hp := h.pending k hk
    rw [hpending, hplaced]
    split_ifs with hjk
    · subst hjk
      rw [List.count_cons_self] at hp
      omega
    · rwa [List.count_cons_of_ne hjk] at hp
  · have hnotready : j ∉ p.ready := by
      intro hj
      have h0 := ((h.ready j).1 hj).2.2
      omega
    simp only [release]
    split_ifs
    · exact queue_sorted j p.ready h.sorted hnotready
    · exact h.sorted
  · intro k
    rw [mem_release_ready, h.ready, hpending, hplaced]
    split_ifs with hjk
    · subst hjk
      constructor
      · intro hzero
        rcases hzero with ⟨_, _, h0⟩ | ⟨_, h0⟩
        · omega
        · exact ⟨hjn, hjp, h0⟩
      · intro ⟨_, _, h0⟩
        exact .inr ⟨rfl, h0⟩
    · exact ⟨fun hk => hk.resolve_right fun hk => hjk hk.1.symm, .inl⟩
  · intro k hk
    exact h.todo_fresh k (List.mem_cons_of_mem j hk)

theorem releaseAll_inv {p : Placement} {todo : List ℕ} (h : Inv n succ todo p) :
    Inv n succ [] (todo.foldl release p) := by
  induction todo generalizing p with
  | nil => exact h
  | cons j todo ih => exact ih (release_inv h)

/-! ### Steps -/

/-- placing the first ready node leaves the nodes that it leads to to be released -/
theorem place_inv {p : Placement} {i : ℕ} {rest : List ℕ} (hA : Adjacency n succ) (h : Inv n succ [] p)
    (hr : p.ready = i :: rest) :
    Inv n succ (succ i) { p with ready := rest, placed := p.placed ++ [i] } := by
  have hfree : Free n succ p.placed i := (h.ready_iff_free hA i).1 (by simp [hr])
  obtain ⟨hi, hrest⟩ := List.pairwise_cons.1 (hr ▸ h.sorted)
  refine ⟨h.length, ?_, hrest, ?_, ?_, hA.nodup i, ?_⟩
  · intro j hj
    rw [h.pending j hj, List.count_nil, Nat.add_zero]
    exact waiting_snoc hA p.placed i j hfree.lt hfree.fresh
  · intro j
    have hj := h.ready j
    rw [hr, List.mem_cons] at hj
    simp only [List.mem_append, List.mem_singleton, not_or]
    constructor
    · intro hjr
      obtain ⟨hlt, hjp, h0⟩ := hj.1 (.inr hjr)
      exact ⟨hlt, ⟨hjp, fun hji => absurd (hi j hjr) (by omega)⟩, h0⟩
    · intro ⟨hlt, ⟨hjp, hji⟩, h0⟩
      exact (hj.2 ⟨hlt, hjp, h0⟩).resolve_left hji
  · refine (greedy_snoc p.placed i).2 ⟨h.greedy, hfree, ?_⟩
    intro j hj
    have hjr := (h.ready_iff_free hA j).2 hj
    rw [hr, List.mem_cons] at hjr
    rcases hjr with rfl | hjr
    · exact le_rfl
    · exact (hi j hjr).le
  · -- what the placed node leads to is not placed yet: the placed nodes have all that lead to them before them
    intro j hj
    refine ⟨(hA.lt i j hj).2, ?_⟩
    simp only [List.mem_append, List.mem_singleton, not_or]
    constructor
    · exact fun hjp => hfree.fresh (h.greedy.pred_mem hj hjp)
    · rintro rfl
      exact hfree.fresh (hfree.preds j hj)

theorem step_inv {p : Placement} (hA : Adjacency n succ) (h : Inv n succ [] p) : Inv n succ [] (p.step succ) := by
  unfold step
  split
  · exact h
  · next i rest hr => exact releaseAll_inv (place_inv hA h hr)

theorem run_inv {p : Placement} (hA : Adjacency n succ) (k : ℕ) (h : Inv n succ [] p) : Inv n succ [] (run succ k p) := by
  induction k generalizing p with
  | zero => exact h
  | succ k ih => exact ih (step_inv hA h)

/-! ### The end -/

theorem releaseAll_placed (todo : List ℕ) (p : Placement) : (todo.foldl release p).placed = p.placed := by
  induction todo generalizing p with
  | nil => rfl
  | cons j todo ih => exact ih (p.release j)

theorem run_of_ready_nil {p : Placement} (k : ℕ) (hr : p.ready = []) : run succ k p = p := by
  induction k with
  | zero => rfl
  | succ k ih =>
    have hstep : p.step succ = p := by simp [step, hr]
    rw [run, hstep, ih]

/-- each step places a node, until none is ready -/
theorem run_progress (k : ℕ) (p : Placement) :
    (run succ k p).ready = [] ∨ (run succ k p).placed.length = p.placed.length + k := by
  induction k generalizing p with
  | zero => exact .inr rfl
  | succ k ih =>
    cases hr : p.ready with
    | nil => rw [run_of_ready_nil _ hr]; exact .inl hr
    | cons i rest =>
      have hplaced : (p.step succ).placed.length = p.placed.length + 1 := by
        simp [step, hr, releaseAll_placed]
      refine (ih (p.step succ)).imp id fun hk => ?_
      rw [run, hk, hplaced]; omega

/-- positions below `n` without repetition are at most `n`, and exactly `n` when none is missing -/
theorem length_of_nodup_lt {ps : List ℕ} (hn : ps.Nodup) (hlt : ∀ i ∈ ps, i < n) :
    ps.length ≤ n ∧ (ps.length = n ↔ ∀ i < n, i ∈ ps) := by
  have hsub : ps.Subperm (List.range n) := hn.subperm fun i hi => List.mem_range.2 (hlt i hi)
  have hle : ps.length ≤ n := by simpa using hsub.length_le
  refine ⟨hle, fun hlen i hi => ?_, fun hall => le_antisymm hle ?_⟩
  · exact (hsub.perm_of_length_le (by simp [hlen])).mem_iff.2 (List.mem_range.2 hi)
  · simpa using (List.nodup_range.subperm fun i hi => hall i (List.mem_range.1 hi)).length_le

theorem finish_inv (hA : Adjacency n succ) : Inv n succ [] (finish n succ) := run_inv hA n (start_inv hA)

/-- **The loop ends with nothing ready**: after as many steps as there are nodes, no node is free. -/
theorem finish_not_free (hA : Adjacency n succ) (i : ℕ) : ¬ Free n succ (finish n succ).placed i := by
  have h := finish_inv hA
  obtain ⟨hlt, hn⟩ := h.greedy.lt_and_nodup
  rw [← h.ready_iff_free hA]
  rcases run_progress n (start n succ) with hr | hlen
  · rw [finish, hr]; exact List.not_mem_nil
  · intro hi
    obtain ⟨hin, hip, -⟩ := (h.ready i).1 hi
    have hplaced : (start n succ).placed.length = 0 := rfl
    exact hip (((length_of_nodup_lt hn hlt).2.1 (by rw [finish, hlen, hplaced, Nat.zero_add])) i hin)

/-- a node is left over just when its counter is above zero -/
theorem finish_pending (hA : Adjacency n succ) (i : ℕ) (hi : i < n) :
    0 < (finish n succ).pending.getD i 0 ↔ i ∉ (finish n succ).placed := by
  have h := finish_inv hA
  have hzero : (finish n succ).pending.getD i 0 = 0 ↔ ∀ j, i ∈ succ j → j ∈ (finish n succ).placed := by
    rw [h.pending i hi, List.count_nil, Nat.add_zero, waiting_eq_zero hA]
  rw [Nat.pos_iff_ne_zero, not_iff_not, hzero]
  refine ⟨fun hpreds => by_contra fun hip => finish_not_free hA i ⟨hi, hip, hpreds⟩, ?_⟩
  exact fun hip j hij => h.greedy.pred_mem hij hip

/-- what is left over holds a closed walk, as each node left over has another one that leads to it -/
theorem exists_closedWalk_of_left (hA : Adjacency n succ) (hlen : (finish n succ).placed.length ≠ n) :
    ∃ c, ClosedWalk (fun i j => j ∈ succ i) c := by
  have h := finish_inv hA
  obtain ⟨hlt, hn⟩ := h.greedy.lt_and_nodup
  have hne : ∃ i < n, i ∉ (finish n succ).placed := by
    by_contra hall
    push Not at hall
    exact hlen ((length_of_nodup_lt hn hlt).2.2 hall)
  refine exists_closedWalk_of_pred (U := {i | i < n ∧ i ∉ (finish n succ).placed})
    ((Set.finite_lt_nat n).subset fun i hi => hi.1) hne ?_
  intro i ⟨hi, hip⟩
  by_contra hno
  push Not at hno
  refine finish_not_free hA i ⟨hi, hip, fun j hij => by_contra fun hjp => ?_⟩
  exact hno j ⟨(hA.lt j i hij).1, hjp⟩ hij

/-- no closed walk passes a placed node: all that lead to it would be placed before it, itself among them -/
theorem not_placed_of_closedWalk (hA : Adjacency n succ) {c : List ℕ} (hc : ClosedWalk (fun i j => j ∈ succ i) c)
    {i : ℕ} (hi : i ∈ c) : i ∉ (finish n succ).placed := by
  have hg := (finish_inv hA).greedy
  intro hip
  obtain ⟨l, hl, -⟩ := hc.exists_from hi
  have hall : ∀ j ∈ i :: l, j ∈ (finish n succ).placed :=
    List.IsChain.backwards_concat_induction (· ∈ (finish n succ).placed) (i :: l)
      (by rw [List.cons_append]; exact (closedWalk_cons i l).1 hl) (fun x y hxy hy => hg.pred_mem hxy hy) hip
  exact not_closedWalk_precedes hg.lt_and_nodup.2 (i :: l) (hl.imp fun x _ y hy hxy => hg.precedes hxy (hall y hy))

end Placement

/-! ## The order of a graph -/

namespace DependencyGraph

open Placement

theorem Linked.adjacency {g : DependencyGraph} (h : g.Linked) : Adjacency g.size g.successors where
  nodup := h.successors_nodup
  lt i j hij := (h.leads ((mem_successors g i j).1 hij)).2

theorem leads_eq (g : DependencyGraph) : g.Leads = fun i j => j ∈ g.successors i := by
  funext i j; rw [mem_successors]

/-- the positions that the loop places -/
def placed (g : DependencyGraph) : List ℕ := (finish g.size g.successors).placed

/-- the positions that the loop leaves over, as it finds them: those whose counter is above zero -/
def left (g : DependencyGraph) : List ℕ :=
  (List.range g.size).filter fun i => 0 < (finish g.size g.successors).pending.getD i 0

theorem positionOrder_eq (g : DependencyGraph) :
    g.positionOrder = if g.placed.length = g.size then .ok g.placed
      else .error (shortestCycle g.size g.successors g.left) := by
  simp only [positionOrder, Tabulated.get_eq]
  rfl

theorem positionOrder_ok_iff (g : DependencyGraph) (ps : List ℕ) :
    g.positionOrder = .ok ps ↔ g.placed.length = g.size ∧ g.placed = ps := by
  rw [positionOrder_eq]
  split_ifs with h <;> simp [h]

theorem order_ok_iff (g : DependencyGraph) (ms : List TypeRef) :
    g.order = .ok ms ↔ ∃ ps, g.positionOrder = .ok ps ∧ ms = g.mixinsAt ps := by
  unfold order
  cases g.positionOrder with
  | ok ps => simp [eq_comm]
  | error ps => simp

theorem order_error_iff (g : DependencyGraph) (ms : List TypeRef) :
    g.order = .error ms ↔ ∃ ps, g.positionOrder = .error ps ∧ ms = g.mixinsAt ps := by
  unfold order
  cases g.positionOrder with
  | ok ps => simp
  | error ps => simp [eq_comm]

/-- at positions of nodes, no mixin is missing -/
theorem mixinsAt_map_some (g : DependencyGraph) (ps : List ℕ) (h : ∀ i ∈ ps, i < g.size) :
    (g.mixinsAt ps).map some = ps.map (g.nodes[·]?) :=
  map_some_filterMap fun i hi => by simpa [size] using h i hi

theorem mixinsAt_range (g : DependencyGraph) : g.mixinsAt (List.range g.size) = g.nodes := by
  refine List.map_injective_iff.2 (Option.some_injective _) ?_
  rw [mixinsAt_map_some g _ fun i => List.mem_range.1]
  exact List.ext_getElem (by simp [size]) (by simp [size])

/-- the loop places every node, unless there is a closed walk -/
theorem placed_all_iff {g : DependencyGraph} (hg : g.Linked) :
    g.placed.length = g.size ↔ ∀ c, ¬ ClosedWalk g.Leads c := by
  rw [leads_eq]
  constructor
  · intro hlen c
    exact ((finish_inv hg.adjacency).greedy.isLeast hg.adjacency hlen).1.not_closedWalk c
  · intro hno
    by_contra hlen
    obtain ⟨c, hc⟩ := exists_closedWalk_of_left hg.adjacency hlen
    exact hno c hc

theorem isLeast_of_positionOrder {g : DependencyGraph} (hg : g.Linked) {ps : List ℕ} (h : g.positionOrder = .ok ps) :
    IsLeast {qs | IsOrder g.size g.Leads qs} ps := by
  obtain ⟨hlen, rfl⟩ := (positionOrder_ok_iff g ps).1 h
  rw [leads_eq]
  exact (finish_inv hg.adjacency).greedy.isLeast hg.adjacency hlen

/-- **The order is there unless there is a cycle, and it is the least.** The nodes have an order just when no cycle
goes through them; then the positions found are the least of all orders of the positions, the mixins are those at these
positions, and a graph of as many nodes with the same links, whenever they were entered, has the same positions found. -/
theorem order_least_unless_cyclic (g : DependencyGraph) (hg : g.Built) :
    ((∃ ms, g.order = .ok ms) ↔ ∀ c, ¬ IsCycle g.Leads c) ∧
    ∀ ms, g.order = .ok ms → ∃ ps, g.positionOrder = .ok ps ∧ ms.map some = ps.map (g.nodes[·]?) ∧
      IsLeast {qs | IsOrder g.size g.Leads qs} ps ∧
      ∀ g' : DependencyGraph, g'.Built → g'.size = g.size → (∀ i j, g'.Leads i j ↔ g.Leads i j) →
        g'.positionOrder = .ok ps := by
  have hexists : ∀ {g : DependencyGraph}, g.Built →
      ((∃ ps, g.positionOrder = .ok ps) ↔ ∀ c, ¬ ClosedWalk g.Leads c) := by
    intro g hg
    simp only [positionOrder_ok_iff, exists_and_left, exists_eq', and_true, placed_all_iff hg.linked]
  have hcycle : (∀ c, ¬ IsCycle g.Leads c) ↔ ∀ c, ¬ ClosedWalk g.Leads c := by
    rw [← not_exists, exists_isCycle_iff, not_exists]
  refine ⟨?_, fun ms hms => ?_⟩
  · rw [hcycle, ← hexists hg]
    simp only [order_ok_iff]
    exact ⟨fun ⟨_, ps, hps, _⟩ => ⟨ps, hps⟩, fun ⟨ps, hps⟩ => ⟨_, ps, hps, rfl⟩⟩
  · obtain ⟨ps, hps, rfl⟩ := (order_ok_iff g ms).1 hms
    have hleast := isLeast_of_positionOrder hg.linked hps
    refine ⟨ps, hps, mixinsAt_map_some g ps fun i hi => ?_, hleast, fun g' hg' hsize hleads => ?_⟩
    · exact List.mem_range.1 (hleast.1.perm.subset hi)
    · have hsame : g'.Leads = g.Leads := by funext i j; exact propext (hleads i j)
      obtain ⟨ps', hps'⟩ := (hexists hg').2 (by rw [hsame]; exact (hexists hg).1 ⟨ps, hps⟩)
      have hleast' := isLeast_of_positionOrder hg'.linked hps'
      rw [hsize, hsame] at hleast'
      rw [hps', hleast'.unique hleast]

/-- three mixins; the third is linked to the first, and what else is paired makes no link -/
def tieGraph : DependencyGraph :=
  ofPairs ⟨"T", []⟩ [⟨"A", []⟩, ⟨"B", []⟩, ⟨"C", []⟩] [(2, 0), (1, 1), (2, 0), (0, 7)]

/-- free nodes go by position: `B` is free from the start, and lower than `C` -/
theorem tieGraph_order_least : tieGraph.Built ∧ tieGraph.order = .ok [⟨"B", []⟩, ⟨"C", []⟩, ⟨"A", []⟩] ∧
    IsLeast {qs | IsOrder tieGraph.size tieGraph.Leads qs} [1, 2, 0] := by
  have hbuilt : tieGraph.Built := .ofPairs _ _ _
  have horder : tieGraph.order = .ok [⟨"B", []⟩, ⟨"C", []⟩, ⟨"A", []⟩] := by rfl
  have hpositions : tieGraph.positionOrder = .ok [1, 2, 0] := by rfl
  obtain ⟨ps, hps, -, hleast, -⟩ := (order_least_unless_cyclic tieGraph hbuilt).2 _ horder
  obtain rfl : [1, 2, 0] = ps := by simpa [hpositions] using hps
  exact ⟨hbuilt, horder, hleast⟩

end DependencyGraph

end MixinPlanner
