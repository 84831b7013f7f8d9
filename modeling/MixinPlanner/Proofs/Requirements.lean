/-
What implements a complete interface has all its members.

The members of a type are its own and those of its interfaces. Members belong to declarations, and declarations are found by
name, so arguments make no difference to them: types of one name have interfaces of the same names (`interfacesOf_same_name`),
even if one is applied to other arguments, to another number of them or to none.

- `members_of_implements`: a type has all the members of an interface that it implements, under whatever arguments, as long as
  the search for its interfaces is not cut off;
- `unsatisfiable_iff`: what is reported of a complete interface is that it is not completed;
- `implemented_satisfied`: so nothing is reported of one that the target or a mixin implements.
-/
import MixinPlanner.Proofs.InterfaceClosure
import MixinPlanner.Proofs.Rejection
import MixinPlanner.Proofs.Substitution

namespace MixinPlanner

namespace Catalog

variable {c : Catalog} {t u i : TypeRef}

/-! ## Names -/

theorem ownMembers_same_name (h : t.name = u.name) : c.ownMembers t = c.ownMembers u := by
  rw [ownMembers, ownMembers, c.decl?_same_name h]

/-- the interfaces that a declaration gives an application have the names that it lists, whatever the arguments -/
theorem map_name_interfacesFor (d : TypeDecl) (args : List TypeArg) :
    (d.interfacesFor args).map TypeRef.name = d.interfaces.map TypeRef.name := by
  rw [TypeDecl.interfacesFor]
  split_ifs
  · rw [List.map_map]
    exact List.map_congr_left fun i _ => i.substitute_name _
  · rfl

theorem declares_same_name (h : t.name = u.name) (hi : c.Declares t i) : ∃ j, c.Declares u j ∧ j.name = i.name := by
  have hi : i ∈ c.directInterfaces t := hi
  have hnames : (c.directInterfaces t).map TypeRef.name = (c.directInterfaces u).map TypeRef.name := by
    rw [directInterfaces, directInterfaces, c.decl?_same_name h]
    cases c.decl? u with
    | none => rfl
    | some d =>
      show (d.interfacesFor t.args).map TypeRef.name = (d.interfacesFor u.args).map TypeRef.name
      rw [map_name_interfacesFor, map_name_interfacesFor]
  exact List.mem_map.1 (hnames ▸ List.mem_map_of_mem hi)

/-- types of one name have interfaces of the same names -/
theorem interfacesOf_same_name (h : t.name = u.name) (hi : i ∈ c.interfacesOf t) :
    ∃ j ∈ c.interfacesOf u, j.name = i.name := by
  induction hi with
  | single hi =>
    obtain ⟨j, hj, hname⟩ := declares_same_name h hi
    exact ⟨j, Declares.mem hj, hname⟩
  | tail _ hi ih =>
    obtain ⟨j, hj, hname⟩ := ih
    obtain ⟨k, hk, hname'⟩ := declares_same_name hname.symm hi
    exact ⟨k, mem_interfacesOf_of_declares hj hk, hname'⟩

/-! ## Members -/

theorem mem_members_iff {m : String} :
    m ∈ c.members t ↔ m ∈ c.ownMembers t ∨ ∃ i ∈ c.allInterfaces t, m ∈ c.ownMembers i := by
  rw [members, SortedBy.mem_ofList, List.mem_append, List.mem_flatMap]
  rfl

/-- **A type has the members of what it implements.** -/
theorem members_of_implements (h : c.implements t i = true) (hsmall : (c.interfacesOf t).encard ≤ closureBound) :
    ∀ m ∈ c.members i, m ∈ c.members t := by
  have hfound := (stopped_allInterfaces (c := c) t).mem_iff hsmall
  obtain ⟨j, hj, hanswers⟩ := (c.implements_iff t i).1 h
  -- what answers to an interface has its name, and that is all that counts for members
  have hname : i.name = j.name := by
    rcases hanswers with rfl | ⟨-, hname⟩
    · rfl
    · exact hname.symm
  intro m hm
  apply mem_members_iff.2
  right
  rcases mem_members_iff.1 hm with hown | ⟨k, hk, hown⟩
  · exact ⟨j, hj, ownMembers_same_name hname ▸ hown⟩
  · obtain ⟨k', hk', hname'⟩ := interfacesOf_same_name hname ((stopped_allInterfaces i).sound k hk)
    refine ⟨k', (hfound k').2 (Relation.TransGen.trans ((hfound j).1 hj) hk'), ?_⟩
    rw [ownMembers_same_name hname']
    exact hown

end Catalog

/-! ## The report -/

namespace Context

variable {catalog : Catalog} {c : Context} {i t : TypeRef}

/-- what is reported of a complete interface is that it is not completed -/
theorem unsatisfiable_iff {reason : String} : .unsatisfiableInterface c.target i reason ∈ c.problems catalog ↔
    (∃ f ∈ c.completeInterfaces, f.interface = i) ∧ c.interfaceFault catalog i = some reason := by
  rw [problems, List.mem_append, List.mem_filterMap]
  constructor
  · rintro (hmixin | ⟨f, hf, hproblem⟩)
    · -- the problems of mixins are of other kinds
      obtain ⟨e, -, hmem⟩ := List.mem_flatMap.1 hmixin
      rcases List.mem_append.1 hmem with hmem | hmem
      · obtain ⟨k, -, hk⟩ := List.mem_map.1 hmem
        cases hk
      · obtain ⟨fault, -, hfault⟩ := Option.map_eq_some_iff.1 (Option.mem_toList.1 hmem)
        cases hfault
    · obtain ⟨reason', hfault, heq⟩ := Option.map_eq_some_iff.1 hproblem
      obtain ⟨-, rfl, rfl⟩ := Problem.unsatisfiableInterface.inj heq
      exact ⟨⟨f, hf, rfl⟩, hfault⟩
  · rintro ⟨⟨f, hf, rfl⟩, hfault⟩
    exact .inr ⟨f, hf, Option.map_eq_some_iff.2 ⟨reason, hfault, rfl⟩⟩

/-- a type has what an interface requires, and the interface is not reported -/
structure Satisfies (catalog : Catalog) (c : Context) (i t : TypeRef) : Prop where
  members : ∀ m ∈ catalog.members i, m ∈ catalog.members t
  unreported : ∀ reason, .unsatisfiableInterface c.target i reason ∉ c.problems catalog

/-- **An interface that is implemented is satisfied.** If the target or a mixin implements a declared interface, or some
application of it where the interface stands for its definition, and has no more interfaces than the closure holds, then it has
all the members that the interface requires, and the interface is not reported as unsatisfiable. -/
theorem implemented_satisfied (hi : catalog.isInterface i = true) (ht : t = c.target ∨ t ∈ c.mixinTypes)
    (h : catalog.implements t i = true) (hsmall : (catalog.interfacesOf t).encard ≤ closureBound) :
    c.Satisfies catalog i t := by
  have hmembers := Catalog.members_of_implements h hsmall
  have hcompletes : c.Completes catalog i := by
    refine ⟨hi, ?_⟩
    by_cases hnone : ∃ m, m ∈ catalog.members i
    · obtain ⟨m, hm⟩ := hnone
      exact .inr ⟨m, hm, t, ht, hmembers m hm⟩
    · exact .inl (not_exists.1 hnone)
  refine ⟨hmembers, ?_⟩
  intro reason hreported
  have hfault := (unsatisfiable_iff.1 hreported).2
  rw [(interfaceFault_eq_none catalog c i).2 hcompletes] at hfault
  cases hfault

/-- repositories are sources and sources are repositories, each with a member of its own, and a store is a repository of
orders -/
def storeCatalog : Catalog :=
  .ofList [((TypeDecl.ofInterface "IRepository").withParam "T" []).implementing ⟨"ISource", [.param "T"]⟩
      |>.withMember "Find",
    ((TypeDecl.ofInterface "ISource").withParam "U" []).implementing ⟨"IRepository", [.param "U"]⟩
      |>.implementing ⟨"IDisposable", []⟩ |>.withMember "Open",
    (TypeDecl.ofInterface "IDisposable").withMember "Dispose",
    (TypeDecl.ofClass "Store").implementing ⟨"IRepository", [.closed ⟨"Order", []⟩]⟩]

/-- a cart with a store, which is to complete the interface of repositories -/
def storeContext : Context :=
  .build {} ⟨"Cart", []⟩ [.mixin { mixin := ⟨"Store", []⟩ }, .completeInterface ⟨⟨"IRepository", []⟩, none⟩]

/-- the store implements the definition of repositories, by an application of it -/
theorem storeContext_satisfied :
    let repository : TypeRef := ⟨"IRepository", []⟩
    let store : TypeRef := ⟨"Store", []⟩
    storeCatalog.isInterface repository = true ∧ store ∈ storeContext.mixinTypes ∧
      storeCatalog.implements store repository = true ∧ repository ∉ storeCatalog.allInterfaces store ∧
      (storeCatalog.interfacesOf store).encard ≤ closureBound ∧
      (storeCatalog.members repository).toList = ["Dispose", "Find", "Open"] ∧
      storeContext.Satisfies storeCatalog repository store := by
  intro repository store
  have hi : storeCatalog.isInterface repository = true := by decide
  have hmem : store ∈ storeContext.mixinTypes := by decide
  have himplements : storeCatalog.implements store repository = true := by decide
  have hother : repository ∉ storeCatalog.allInterfaces store := by
    show repository ∉ (storeCatalog.allInterfaces store).toList
    decide
  have hsmall : (storeCatalog.interfacesOf store).encard ≤ closureBound := Catalog.encard_le_of_size_lt (by decide)
  exact ⟨hi, hmem, himplements, hother, hsmall, by decide,
    implemented_satisfied hi (.inr hmem) himplements hsmall⟩

end Context

end MixinPlanner
