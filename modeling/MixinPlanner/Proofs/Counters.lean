/-
The counters of the placing loop at every state that it passes, and the nodes that it leaves over.

`Placement.Passes` has the states of the loop with what led to them: the nodes that the one placed last has still to
release, none of them at the head of the loop, and all nodes that have become ready so far. Each of its cases is one step of
the loop.

- `Passes.inv`, `Passes.entered_perm`: what the steps keep;
- `Passes.counted`: at each state the counters are exact, no node has become ready twice, and what is released next has a
  counter above zero, so taking one off never goes below it;
- `passes_finish`: the loop passes the state at which it ends;
- `mem_left_iff`: what it leaves over are the nodes on a cycle, and those that a cycle leads to.
-/
import Mathlib.Tactic
import MixinPlanner.Proofs.CycleSearch

namespace MixinPlanner

namespace Placement

variable {n : ℕ} {succ : ℕ → List ℕ}

/-! ## The states of the loop -/

/-- a state that the loop passes, with the nodes still to be released and those that have become ready, in their order -/
inductive Passes (n : ℕ) (succ : ℕ → List ℕ) : Placement → List ℕ → List ℕ → Prop
  | start : Passes n succ (start n succ) [] (start n succ).ready
  /-- at the head of the loop the first ready node is placed -/
  | place {p : Placement} {entered rest : List ℕ} {i : ℕ} (h : Passes n succ p [] entered) (hr : p.ready = i :: rest) :
      Passes n succ { p with ready := rest, placed := p.placed ++ [i] } (succ i) entered
  /-- a node that the placed one leads to is released; it becomes ready if nothing else leads to it any more -/
  | release {p : Placement} {entered todo : List ℕ} {j : ℕ} (h : Passes n succ p (j :: todo) entered) :
      Passes n succ (p.release j) todo (if p.pending.getD j 0 - 1 = 0 then entered ++ [j] else entered)

theorem Passes.inv {p : Placement} {todo entered : List ℕ} (hA : Adjacency n succ) (h : Passes n succ p todo entered) :
    Inv n succ todo p := by
  induction h with
  | start => exact start_inv hA
  | place _ hr ih => exact place_inv hA ih hr
  | release _ ih => exact release_inv ih

theorem queue_perm (i : ℕ) (l : List ℕ) : (queue i l).Perm (i :: l) := by
  induction l with
  | nil => exact .refl _
  | cons j l ih =>
    rw [queue]
    split_ifs
    · exact .refl _
    · exact (ih.cons j).trans (.swap i j l)

/-- what has become ready is placed, or waits to be -/
theorem Passes.entered_perm {p : Placement} {todo entered : List ℕ} (h : Passes n succ p todo entered) :
    entered.Perm (p.placed ++ p.ready) := by
  induction h with
  | start => exact .refl _
  | @place p entered rest i _ hr ih =>
    rw [hr] at ih
    simpa using ih
  | @release p entered todo j _ ih =>
    simp only [Placement.release]
    split_ifs
    · calc (entered ++ [j]).Perm ((p.placed ++ p.ready) ++ [j]) := ih.append_right [j]
        _ = p.placed ++ (p.ready ++ [j]) := List.append_assoc ..
        (p.placed ++ (p.ready ++ [j])).Perm (p.placed ++ (j :: p.ready)) := (List.perm_append_singleton j p.ready).append_left _
        (p.placed ++ (j :: p.ready)).Perm (p.placed ++ queue j p.ready) := (queue_perm j p.ready).symm.append_left _
    · exact ih

/-- no node is both placed and ready, or either of them twice -/
theorem Inv.placed_ready_nodup {p : Placement} {todo : List ℕ} (h : Inv n succ todo p) :
    (p.placed ++ p.ready).Nodup := by
  refine List.nodup_append.2 ⟨h.greedy.lt_and_nodup.2, h.sorted.imp Nat.ne_of_lt, fun i hi j hj hij => ?_⟩
  exact ((h.ready j).1 hj).2.1 (hij ▸ hi)

/-- what holds of counters and ready nodes at a state of the loop -/
structure Counted (n : ℕ) (succ : ℕ → List ℕ) (p : Placement) (todo entered : List ℕ) : Prop where
  /-- every node has a counter -/
  length : p.pending.length = n
  /-- it is the number of unplaced nodes that lead to the node; a node that is still to be released is counted once more -/
  exact : ∀ j < n, p.pending[j]? = some (waiting n succ p.placed j + todo.count j)
  /-- no node becomes ready twice -/
  once : entered.Nodup
  /-- what became ready is placed, or waits -/
  accounted : entered.Perm (p.placed ++ p.ready)
  /-- all of these are nodes -/
  inRange : ∀ j ∈ entered, j < n
  /-- a node that is still to be released has a counter above zero -/
  above : ∀ j ∈ todo, ∃ k, p.pending[j]? = some (k + 1)

theorem Passes.counted {p : Placement} {todo entered : List ℕ} (hA : Adjacency n succ)
    (h : Passes n succ p todo entered) : Counted n succ p todo entered := by
  have hinv := h.inv hA
  have hperm := h.entered_perm
  have hexact : ∀ j < n, p.pending[j]? = some (waiting n succ p.placed j + todo.count j) := by
    intro j hj
    have hlt : j < p.pending.length := by rw [hinv.length]; exact hj
    rw [← hinv.pending j hj, List.getD_eq_getElem?_getD, List.getElem?_eq_getElem hlt, Option.getD_some]
  refine ⟨hinv.length, hexact, hperm.nodup_iff.2 hinv.placed_ready_nodup, hperm, ?_, ?_⟩
  · intro j hj
    rcases List.mem_append.1 (hperm.subset hj) with hj | hj
    · exact hinv.greedy.lt_and_nodup.1 j hj
    · exact ((hinv.ready j).1 hj).1
  · intro j hj
    have hcount : todo.count j = 1 := List.count_eq_one_of_mem hinv.todo_nodup hj
    exact ⟨_, by rw [hexact j (hinv.todo_fresh j hj).1, hcount]⟩

/-! ## The end of the loop -/

theorem Passes.releaseAll {p : Placement} {todo entered : List ℕ} (h : Passes n succ p todo entered) :
    ∃ entered, Passes n succ (todo.foldl Placement.release p) [] entered := by
  induction todo generalizing p entered with
  | nil => exact ⟨entered, h⟩
  | cons j todo ih => exact ih h.release

theorem Passes.step {p : Placement} {entered : List ℕ} (h : Passes n succ p [] entered) :
    ∃ entered, Passes n succ (p.step succ) [] entered := by
  unfold Placement.step
  split
  · exact ⟨entered, h⟩
  · next i rest hr => exact (h.place hr).releaseAll

theorem Passes.run {p : Placement} {entered : List ℕ} (k : ℕ) (h : Passes n succ p [] entered) :
    ∃ entered, Passes n succ (Placement.run succ k p) [] entered := by
  induction k generalizing p entered with
  | zero => exact ⟨entered, h⟩
  | succ k ih =>
    obtain ⟨entered, h⟩ := h.step
    exact ih h

/-- the loop passes the state at which it ends, and nothing is ready there -/
theorem passes_finish (hA : Adjacency n succ) :
    (∃ entered, Passes n succ (finish n succ) [] entered) ∧ (finish n succ).ready = [] := by
  refine ⟨Passes.start.run n, List.eq_nil_iff_forall_not_mem.2 fun i hi => ?_⟩
  exact finish_not_free hA i (((finish_inv hA).ready_iff_free hA i).1 hi)

end Placement

/-! ## What is left over -/

namespace DependencyGraph

open Placement

variable {g : DependencyGraph}

/-- what a node that is left over leads to is left over -/
theorem mem_left_of_leads (hg : g.Linked) {i j : ℕ} (hi : i ∈ g.left) (hij : g.Leads i j) : j ∈ g.left := by
  refine (mem_left hg j).2 ⟨(hg.leads hij).2.2, fun hj => ((mem_left hg i).1 hi).2 ?_⟩
  exact (finish_inv hg.adjacency).greedy.pred_mem ((mem_successors g i j).2 hij) hj

/-- to a node that is left over another one leads -/
theorem exists_leads_of_mem_left (hg : g.Linked) {j : ℕ} (hj : j ∈ g.left) : ∃ i ∈ g.left, g.Leads i j := by
  obtain ⟨hlt, hplaced⟩ := (mem_left hg j).1 hj
  by_contra hno
  push Not at hno
  refine finish_not_free hg.adjacency j ⟨hlt, hplaced, fun i hij => by_contra fun hi => ?_⟩
  have hleads := (mem_successors g i j).1 hij
  exact hno i ((mem_left hg i).2 ⟨(hg.leads hleads).2.1, hi⟩) hleads

/-- **What is left over** are the nodes on a cycle, and those that a cycle leads to. -/
theorem mem_left_iff (hg : g.Linked) (i : ℕ) :
    i ∈ g.left ↔ ∃ c, IsCycle g.Leads c ∧ ∃ j ∈ c, Relation.ReflTransGen g.Leads j i := by
  constructor
  · -- back from the node, among the nodes left over that lead to it, some walk closes
    intro hi
    let U : Set ℕ := {j | j ∈ g.left ∧ Relation.ReflTransGen g.Leads j i}
    have hfinite : U.Finite := g.left.finite_toSet.subset fun j hj => hj.1
    have hpred : ∀ j ∈ U, ∃ k ∈ U, g.Leads k j ∧ k ∈ U := by
      intro j hj
      obtain ⟨k, hk, hkj⟩ := exists_leads_of_mem_left hg hj.1
      exact ⟨k, ⟨hk, hj.2.head hkj⟩, hkj, hk, hj.2.head hkj⟩
    obtain ⟨c, hc⟩ := exists_isCycle_iff.2
      (exists_closedWalk_of_pred (R := fun k j => g.Leads k j ∧ k ∈ U) hfinite ⟨i, hi, .refl⟩ hpred)
    obtain ⟨j, hj⟩ := List.exists_mem_of_ne_nil c hc.closed.1
    obtain ⟨k, -, hjk⟩ := hc.closed.exists_next hj
    exact ⟨c, ⟨hc.closed.imp fun _ _ _ _ hab => hab.1, hc.nodup⟩, j, hj, hjk.2.2⟩
  · intro ⟨c, hc, j, hj, hji⟩
    induction hji with
    | refl => exact mem_left_of_closedWalk hg hc.closed hj
    | tail _ hkl ih => exact mem_left_of_leads hg ih hkl

/-- **The counters are exact, and the leftovers are what cycles reach.** Links lead to nodes only. At every state that the
loop passes, each counter is the number of unplaced nodes that lead to its node, no node has become ready twice, and
nothing is taken off a counter at zero. The loop ends with nothing ready, and what it has placed then is the order, or a
cycle is looked for among the rest. These are the nodes with a counter above zero, which are the nodes on a cycle and those
that a cycle leads to. -/
theorem counters_exact (g : DependencyGraph) (hg : g.Built) :
    (∀ i, ∀ j ∈ g.successors i, j < g.size) ∧
    (∀ p todo entered, Passes g.size g.successors p todo entered → Counted g.size g.successors p todo entered) ∧
    (∃ entered, Passes g.size g.successors (finish g.size g.successors) [] entered) ∧
    (finish g.size g.successors).ready = [] ∧
    (g.positionOrder = if g.placed.length = g.size then .ok g.placed
      else .error (shortestCycle g.size g.successors g.left)) ∧
    ∀ i < g.size, (i ∈ g.left ↔ i ∉ g.placed) ∧
      (i ∈ g.left ↔ 0 < (finish g.size g.successors).pending.getD i 0) ∧
      (i ∈ g.left ↔ ∃ c, IsCycle g.Leads c ∧ ∃ j ∈ c, Relation.ReflTransGen g.Leads j i) := by
  have hlinked := hg.linked
  have hA := hlinked.adjacency
  obtain ⟨hpasses, hready⟩ := passes_finish hA
  refine ⟨fun i j hij => (hA.lt i j hij).2, fun p todo entered h => h.counted hA, hpasses, hready, positionOrder_eq g,
    fun i hi => ?_⟩
  have hleft : i ∈ g.left ↔ i ∉ g.placed := (mem_left hlinked i).trans (and_iff_right hi)
  exact ⟨hleft, hleft.trans (finish_pending hA i hi).symm, mem_left_iff hlinked i⟩

/-- two mixins that depend on each other, one that the second of them depends on, and one that depends on the first -/
def downstream : DependencyGraph :=
  ofPairs ⟨"T", []⟩ [⟨"A", []⟩, ⟨"B", []⟩, ⟨"C", []⟩, ⟨"D", []⟩] [(0, 1), (1, 0), (1, 2), (3, 0)]

/-- only what comes before the circle is placed: `C` lies on no cycle, but one leads to it -/
theorem downstream_left : downstream.Built ∧ downstream.placed = [3] ∧
    Counted downstream.size downstream.successors ⟨[1, 1, 1, 0], [], [3]⟩ [] [3] ∧
    ∃ c, IsCycle downstream.Leads c ∧ ∃ j ∈ c, Relation.ReflTransGen downstream.Leads j 2 := by
  have hbuilt : downstream.Built := .ofPairs _ _ _
  have hplaced : downstream.placed = [3] := by rfl
  obtain ⟨-, hcounted, -, -, -, hleft⟩ := counters_exact downstream hbuilt
  have hpasses : Passes downstream.size downstream.successors ⟨[1, 1, 1, 0], [], [3]⟩ [] [3] := by
    have hplace : Passes downstream.size downstream.successors ⟨[2, 1, 1, 0], [], [3]⟩ [0] [3] := .place .start rfl
    exact hplace.release
  have hnot : 2 ∉ downstream.placed := by
    rw [hplaced]
    decide
  obtain ⟨hplaced_iff, -, hcycle⟩ := hleft 2 (by decide)
  exact ⟨hbuilt, hplaced, hcounted _ _ _ hpasses, hcycle.1 (hplaced_iff.2 hnot)⟩

end DependencyGraph

end MixinPlanner
