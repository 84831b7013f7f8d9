/-
Ordering the mixins of a graph, outermost first.

A node is free when nothing that is still to be placed depends on it. Again and again the free node with the lowest position
is placed. Either all nodes are placed, every one before those that it depends on, or those that remain hold a cycle.
Then a shortest cycle among them is reported: the first that is found from the lowest start, turned so that it begins with
its lowest position.

`Placement` is the state of the first part; what it counts is how many unplaced nodes depend on each node. `Search` is the
state of the second: it has walks from one start, all of one length, and each round makes them longer by one position.
-/
import MixinPlanner.Dependency.Graph
import MixinPlanner.Dependency.Positions
import MixinPlanner.Tabulated

namespace MixinPlanner

/-! ## Placing free nodes -/

/-- how far the placing has come -/
structure Placement where
  /-- for each position, the number of unplaced nodes that depend on it -/
  pending : List Nat
  /-- the free positions that wait, in ascending order -/
  ready : List Nat
  /-- the placed positions in order -/
  placed : List Nat
  deriving DecidableEq, Repr, Inhabited

namespace Placement

/-- a position put among ascending ones -/
def queue (i : Nat) : List Nat → List Nat
  | [] => [i]
  | j :: rest => if i ≤ j then i :: j :: rest else j :: queue i rest

/-- the start: every node that nothing depends on is free -/
def start (count : Nat) (successors : Nat → List Nat) : Placement :=
  let all := (List.range count).flatMap successors
  let pending := (List.range count).map fun i => all.count i
  ⟨pending, (List.range count).filter fun i => pending[i]? == some 0, []⟩

/-- one dependent of a node less; when it was the last, the node becomes free -/
def release (p : Placement) (i : Nat) : Placement :=
  let left := p.pending.getD i 0 - 1
  { p with
    pending := p.pending.set i left
    ready := if left = 0 then queue i p.ready else p.ready }

/-- the free node with the lowest position placed, and the nodes that it depends on released -/
def step (successors : Nat → List Nat) (p : Placement) : Placement :=
  match p.ready with
  | [] => p
  | i :: rest => (successors i).foldl release { p with ready := rest, placed := p.placed ++ [i] }

/-- a number of steps -/
def run (successors : Nat → List Nat) : Nat → Placement → Placement
  | 0, p => p
  | n + 1, p => run successors n (p.step successors)

/-- all steps: no more than there are nodes -/
def finish (count : Nat) (successors : Nat → List Nat) : Placement :=
  run successors count (start count successors)

end Placement

/-! ## The shortest cycle -/

/-- how far a search from one start has come -/
structure Search where
  /-- the positions that some walk has reached -/
  seen : Positions
  /-- the walks to extend next, from their last position back to the start, the latest first -/
  walks : List (List Nat)
  deriving DecidableEq, Repr, Inhabited

namespace Search

/-- the extensions of a walk by positions that are new, or the walk itself when one of them is the start again -/
def extend (start : Nat) (walk : List Nat) : Search → List Nat → Except (List Nat) Search
  | s, [] => .ok s
  | s, i :: rest =>
    if i = start then .error walk
    else if i ∈ s.seen then extend start walk s rest
    else extend start walk ⟨s.seen.insert i, (i :: walk) :: s.walks⟩ rest

/-- the extensions of some walks, each one in turn -/
def extendAll (start : Nat) (successors : Nat → List Nat) : Search → List (List Nat) → Except (List Nat) Search
  | s, [] => .ok s
  | s, walk :: rest =>
    match extend start walk s (successors (walk.headD start)) with
    | .error found => .error found
    | .ok s => extendAll start successors s rest

/-- the first walk that can return to the start, with at most as many positions more as there are rounds -/
def run (start : Nat) (successors : Nat → List Nat) : Nat → Search → Option (List Nat)
  | 0, _ => none
  | rounds + 1, s =>
    match extendAll start successors { s with walks := [] } s.walks.reverse with
    | .error found => some found.reverse
    | .ok s => run start successors rounds s

/-- a shortest cycle through a start, from it on. A walk reaches each position once, so there are no more rounds than
positions. -/
def cycleThrough (count : Nat) (successors : Nat → List Nat) (start : Nat) : Option (List Nat) :=
  run start successors count ⟨Positions.empty.insert start, [[start]]⟩

end Search

/-- the shorter of two cycles, the first one if they are equally long -/
def shorter : Option (List Nat) → Option (List Nat) → Option (List Nat)
  | none, c => c
  | c, none => c
  | some c, some d => if d.length < c.length then some d else some c

/-- a cycle turned so that it begins with its lowest position -/
def turned (cycle : List Nat) : List Nat :=
  match cycle.min? with
  | none => cycle
  | some low => cycle.dropWhile (· != low) ++ cycle.takeWhile (· != low)

/-- a shortest cycle among some positions, from its lowest on; empty if there is none -/
def shortestCycle (count : Nat) (successors : Nat → List Nat) (among : List Nat) : List Nat :=
  let members := Positions.ofList among
  let within := Tabulated.below (fun i => (successors i).filter (· ∈ members)) count
  turned ((among.foldl (fun best i => shorter best (Search.cycleThrough count within.get i)) none).getD [])

/-! ## The order of a graph -/

namespace DependencyGraph

/-- the order of the positions, or a shortest cycle of positions -/
def positionOrder (g : DependencyGraph) : Except (List Nat) (List Nat) :=
  let successors := Tabulated.below g.successors g.size
  let p := Placement.finish g.size successors.get
  if p.placed.length = g.size then .ok p.placed
  else .error (shortestCycle g.size successors.get ((List.range g.size).filter fun i => 0 < p.pending.getD i 0))

/-- the mixins at some positions -/
def mixinsAt (g : DependencyGraph) (positions : List Nat) : List TypeRef :=
  positions.filterMap fun i => g.nodes[i]?

/-- the mixins outermost first, or the mixins of a shortest cycle -/
def order (g : DependencyGraph) : Except (List TypeRef) (List TypeRef) :=
  match g.positionOrder with
  | .ok ps => .ok (g.mixinsAt ps)
  | .error ps => .error (g.mixinsAt ps)

end DependencyGraph

end MixinPlanner
