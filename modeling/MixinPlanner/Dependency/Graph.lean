/-
The dependency graph over the mixins of one context.

Nodes are known by their positions, in the order of declaration; a link from one to another says that the first calls
through to the second. A link never joins a node to itself, its ends are positions of nodes, and of several links between
the same two nodes the first is kept, so the list of links is the whole relation, in the order in which it was found.

Building a graph from a context looks every dependency of every mixin up once (`lookup`): it is a mixin that is present, an
interface that one other mixin implements, a definition that one other mixin applies, something that the target itself is or
implements, or it is ambiguous or missing. What makes no link is recorded, and nothing stops the building.
-/
import MixinPlanner.Catalog
import MixinPlanner.Context

namespace MixinPlanner

/-- why a link exists: the dependency names the mixin, an interface of it, or its definition -/
inductive LinkOrigin where
  | explicit
  | interface
  | definition
  deriving DecidableEq, Repr, Inhabited

/-- the name of an origin -/
def LinkOrigin.text : LinkOrigin → String
  | explicit => "explicit"
  | interface => "interface"
  | definition => "definition"

/-- one mixin depends on another, by position -/
structure Link where
  dependent : Nat
  dependency : Nat
  origin : LinkOrigin
  deriving DecidableEq, Repr, Inhabited

/-- the mixins of a target and how they depend on each other -/
structure DependencyGraph where
  target : TypeRef
  nodes : List TypeRef
  links : List Link := []
  issues : List Problem := []
  warnings : List Warning := []
  deriving DecidableEq

namespace DependencyGraph

/-- the number of nodes -/
def size (g : DependencyGraph) : Nat := g.nodes.length

/-- the position of a mixin -/
def position? (g : DependencyGraph) (mixin : TypeRef) : Option Nat := g.nodes.idxOf? mixin

/-- the positions that a node depends on, in the order in which that was found -/
def successors (g : DependencyGraph) (i : Nat) : List Nat :=
  (g.links.filter fun l => l.dependent == i).map Link.dependency

/-- whether one position depends on another -/
def hasLink (g : DependencyGraph) (i j : Nat) : Bool :=
  g.links.any fun l => l.dependent == i && l.dependency == j

/-- one link more, if it joins two different nodes that are not joined yet -/
def link (g : DependencyGraph) (l : Link) : DependencyGraph :=
  if l.dependent = l.dependency ∨ g.size ≤ l.dependent ∨ g.size ≤ l.dependency ∨
      g.hasLink l.dependent l.dependency then g
  else { g with links := g.links ++ [l] }

/-- the graph of some nodes with explicit links between positions -/
def ofPairs (target : TypeRef) (nodes : List TypeRef) (pairs : List (Nat × Nat)) : DependencyGraph :=
  pairs.foldl (fun g p => g.link ⟨p.1, p.2, .explicit⟩) { target, nodes }

/-- a link with the mixins at its ends -/
structure Edge where
  dependent : TypeRef
  dependency : TypeRef
  origin : LinkOrigin
  deriving DecidableEq

/-- the links with the mixins at their ends -/
def edges (g : DependencyGraph) : List Edge :=
  g.links.filterMap fun l => do
    return ⟨← g.nodes[l.dependent]?, ← g.nodes[l.dependency]?, l.origin⟩

/-- whether one mixin depends on another -/
def hasEdge (g : DependencyGraph) (dependent dependency : TypeRef) : Bool :=
  g.edges.any fun e => e.dependent == dependent && e.dependency == dependency

/-! ## From a context -/

/-- what becomes of one dependency -/
inductive Lookup where
  | found (position : Nat) (origin : LinkOrigin)
  | satisfied
  | ambiguous (candidates : List TypeRef)
  | missing
  deriving DecidableEq

/-- the other nodes with a property, by position, with their mixins -/
def others (g : DependencyGraph) (i : Nat) (p : TypeRef → Bool) : List (TypeRef × Nat) :=
  g.nodes.zipIdx.filter fun n => n.2 != i && p n.1

/-- the one candidate, or several, or else what happens without any -/
@[inline]
def choose (origin : LinkOrigin) (none : Lookup) : List (TypeRef × Nat) → Lookup
  | [] => none
  | [only] => .found only.2 origin
  | many => .ambiguous (many.map Prod.fst)

/-- what a dependency of the mixin at a position is -/
def lookup (g : DependencyGraph) (catalog : Catalog) (i : Nat) (dependency : TypeRef) : Lookup :=
  match g.position? dependency with
  | some j => .found j .explicit
  | none =>
    if catalog.isInterface dependency then
      choose .interface (if catalog.provides g.target dependency then .satisfied else .missing)
        (g.others i fun m => catalog.implements m dependency)
    else if dependency.isDefinition then
      choose .definition .missing (g.others i fun m => m.sameDefinition dependency)
    else .missing

/-- one dependency of a mixin at a position entered: as a link, as an issue, or as a warning -/
def enter (settings : Settings) (catalog : Catalog) (mixin : TypeRef) (i : Nat) (g : DependencyGraph)
    (dependency : TypeRef) : DependencyGraph :=
  match g.lookup catalog i dependency with
  | .found j origin => g.link ⟨i, j, origin⟩
  | .satisfied => g
  | .ambiguous candidates =>
    { g with issues := g.issues ++ [.ambiguousDependency g.target mixin dependency candidates] }
  | .missing =>
    if settings.strictDependencies || catalog.isInterface dependency then
      { g with issues := g.issues ++ [.unsatisfiedDependency g.target mixin dependency] }
    else { g with warnings := g.warnings ++ [.ignoredDependency mixin dependency] }

/-- the graph of a context: every dependency of every mixin entered in order -/
def build (settings : Settings) (catalog : Catalog) (context : Context) : DependencyGraph :=
  context.mixins.zipIdx.foldl
    (fun g e => e.1.fact.dependencies.foldl (enter settings catalog e.1.mixin e.2) g)
    { target := context.target, nodes := context.mixins.map MixinEntry.mixin }

end DependencyGraph

end MixinPlanner
