/-
Contexts: the effective mixins of one target, folded from its facts in the order of declaration.

A mixin fact first suppresses: each of its suppressions removes the mixins that it matches among those declared before,
with the conflicts about them, or is noted as unused. Then the fact joins: the first declaration of a mixin makes an entry
with its index, a later one is absorbed by the entry, and if it was applied otherwise that is recorded as a conflict.
Of the complete-interface facts the first for each interface is kept.

Suppression only looks back: what is declared later, the mixin itself included, is added again.
-/
import MixinPlanner.Problem
import MixinPlanner.Settings

namespace MixinPlanner

/-- a mixin that was declared and not suppressed since -/
structure MixinEntry where
  fact : MixinFact
  /-- the position of its first declaration since the last suppression -/
  declarationIndex : Nat
  deriving DecidableEq

/-- the mixin of an entry -/
def MixinEntry.mixin (e : MixinEntry) : TypeRef := e.fact.mixin

/-- two declarations of one mixin that were applied differently -/
structure MixinConflict where
  mixin : TypeRef
  first : Application
  second : Application
  firstIndex : Nat
  secondIndex : Nat
  deriving DecidableEq

/-- what is known about one target after its facts were folded -/
structure Context where
  target : TypeRef
  mixins : List MixinEntry := []
  completeInterfaces : List CompleteInterfaceFact := []
  conflicts : List MixinConflict := []
  warnings : List Warning := []
  deriving DecidableEq

/-- whether a suppression matches a mixin: it names it, or, where that counts, the definition that it applies -/
def suppresses (byDefinition : Bool) (suppressed mixin : TypeRef) : Bool :=
  suppressed == mixin || (byDefinition && suppressed.isDefinition && suppressed.sameDefinition mixin)

namespace Context

/-- the entry of a mixin -/
def find? (c : Context) (mixin : TypeRef) : Option MixinEntry :=
  c.mixins.find? fun e => e.mixin == mixin

/-- one suppression by a mixin carried out -/
def suppress (byDefinition : Bool) (suppressor : TypeRef) (c : Context) (suppressed : TypeRef) : Context :=
  let removed := (c.mixins.map MixinEntry.mixin).filter (suppresses byDefinition suppressed)
  if removed.isEmpty then { c with warnings := c.warnings ++ [.unusedSuppression suppressor suppressed] }
  else
    { c with
      mixins := c.mixins.filter fun e => !suppresses byDefinition suppressed e.mixin
      conflicts := c.conflicts.filter fun k => k.mixin ∉ removed }

/-- a mixin fact with its index added: as an entry of its own, or absorbed by the one of its mixin -/
def add (c : Context) (fact : MixinFact) (index : Nat) : Context :=
  match c.find? fact.mixin with
  | none => { c with mixins := c.mixins ++ [⟨fact, index⟩] }
  | some e =>
    let conflict : MixinConflict :=
      ⟨fact.mixin, e.fact.application, fact.application, e.declarationIndex, index⟩
    { c with
      mixins := c.mixins.map fun e' => if e'.mixin = fact.mixin then { e' with fact := e'.fact.absorb fact } else e'
      conflicts := if conflict.first = conflict.second then c.conflicts else c.conflicts ++ [conflict] }

/-- a complete-interface fact added, if it is the first for its interface -/
def complete (c : Context) (fact : CompleteInterfaceFact) : Context :=
  if c.completeInterfaces.any fun known => known.interface == fact.interface then c
  else { c with completeInterfaces := c.completeInterfaces ++ [fact] }

/-- the next fact folded in, with its index -/
def fold (byDefinition : Bool) (c : Context) (fact : Fact × Nat) : Context :=
  match fact with
  | (.mixin f, index) => (f.suppresses.toList.foldl (suppress byDefinition f.mixin) c).add f index
  | (.completeInterface f, _) => c.complete f

/-- the context of a target's facts -/
def build (settings : Settings) (target : TypeRef) (facts : List Fact) : Context :=
  facts.zipIdx.foldl (fold settings.suppressDefinitions) { target }

end Context

end MixinPlanner
