/-
The interfaces of an application are those of its definition, with the arguments put in.

A definition may be looked at with its parameters left open (`TypeDecl.opened`), or applied to arguments (`TypeDecl.applied`).
Where declarations mention their own parameters only, and apply other types to as many arguments as these have parameters
(`WellScoped`), it makes no difference whether arguments are put in before or after the interfaces are looked up:

- `substitute_binding`: for one interface of one declaration, as substitution composes;
- `directInterfaces_substitute`: for what one type declares, whatever is put into its arguments;
- `interfaces_instantiated`: for all interfaces, though different ones may become the same, if the search for those of the
  definition is not cut off.
-/
import MixinPlanner.Proofs.InterfaceClosure
import MixinPlanner.Proofs.Substitution

namespace MixinPlanner

namespace TypeDecl

/-- a declared type applied to arguments -/
def applied (d : TypeDecl) (args : List TypeArg) : TypeRef := ⟨d.name, args⟩

/-- a declared type with its parameters left open -/
def opened (d : TypeDecl) : TypeRef := d.applied d.params

/-- a reference mentions parameters of a declaration only -/
def Scopes (d : TypeDecl) (i : TypeRef) : Prop := ∀ p ∈ i.openNames, ∃ q ∈ d.genericParams, q.name = p

variable {d : TypeDecl} {args : List TypeArg} {i : TypeRef}

/-- what is put into an interface with the arguments put in may as well be put into the arguments -/
theorem substitute_binding (hargs : args.length = d.genericParams.length) (hi : d.Scopes i)
    (bind : String → Option TypeArg) : (i.substitute (d.binding args)).substitute bind =
      i.substitute (d.binding (args.map (TypeRef.substituteArg bind))) := by
  rw [TypeRef.substitute_substitute]
  apply TypeRef.substitute_congr
  intro p hp
  obtain ⟨q, hq, rfl⟩ := hi p hp
  obtain ⟨a, ha⟩ := exists_binding hargs hq
  rw [binding_map, TypeRef.andThen, ha, Option.map_some]

/-- an interface with the parameters left open has the arguments put in later -/
theorem substitute_binding_params (hargs : args.length = d.genericParams.length) (hi : d.Scopes i) :
    (i.substitute (d.binding d.params)).substitute (d.binding args) = i.substitute (d.binding args) := by
  rw [substitute_binding d.params_length hi]
  apply TypeRef.substitute_congr
  intro p hp
  obtain ⟨q, hq, rfl⟩ := hi p hp
  obtain ⟨a, ha⟩ := exists_binding hargs hq
  rw [binding_map, binding_params hq, Option.map_some, TypeRef.substituteArg, ha, Option.getD_some]

end TypeDecl

namespace Catalog

variable (c : Catalog)

/-- a reference applies a declared type to as many arguments as it has parameters -/
def FullyApplied (t : TypeRef) : Prop := ∀ d ∈ c.decl? t, t.arity = d.genericParams.length

/-- the interfaces of every declaration mention its own parameters only, and apply a declared type to as many arguments as it
has parameters; how their arguments apply types makes no difference -/
structure WellScoped : Prop where
  scope : ∀ d ∈ c, ∀ i ∈ d.interfaces, d.Scopes i
  arity : ∀ d ∈ c, ∀ i ∈ d.interfaces, c.FullyApplied i

variable {c} {d : TypeDecl} {t i : TypeRef}

theorem decl?_eq_some_iff : c.decl? t = some d ↔ d ∈ c ∧ d.name = t.name := SortedBy.find?_eq_some_iff

theorem decl?_substitute (bind : String → Option TypeArg) (t : TypeRef) : c.decl? (t.substitute bind) = c.decl? t :=
  c.decl?_same_name (t.substitute_name bind)

theorem fullyApplied_substitute (bind : String → Option TypeArg) (h : c.FullyApplied t) :
    c.FullyApplied (t.substitute bind) := by
  intro d hd
  rw [decl?_substitute] at hd
  rw [TypeRef.substitute_arity, h d hd]

theorem directInterfaces_fullyApplied (hd : c.decl? t = some d) (ht : c.FullyApplied t) :
    c.directInterfaces t = d.interfaces.map (TypeRef.substitute (d.binding t.args)) := by
  rw [directInterfaces, hd]
  exact if_pos (ht d hd).symm

theorem WellScoped.fullyApplied_of_declares (hc : c.WellScoped) (h : c.Declares t i) : c.FullyApplied i := by
  have hi : i ∈ c.directInterfaces t := h
  rw [directInterfaces] at hi
  cases hd : c.decl? t with
  | none =>
    rw [hd] at hi
    cases hi
  | some d =>
    have harity := hc.arity d (decl?_eq_some_iff.1 hd).1
    simp only [hd, TypeDecl.interfacesFor] at hi
    split_ifs at hi
    · obtain ⟨j, hj, rfl⟩ := List.mem_map.1 hi
      exact fullyApplied_substitute _ (harity j hj)
    · exact harity i hi

/-- every interface applies its type fully, whatever type it is an interface of -/
theorem WellScoped.fullyApplied (hc : c.WellScoped) (hi : i ∈ c.interfacesOf t) : c.FullyApplied i := by
  cases hi with
  | single h => exact hc.fullyApplied_of_declares h
  | tail _ h => exact hc.fullyApplied_of_declares h

/-- what a type declares has put in what is put into the type -/
theorem directInterfaces_substitute (hc : c.WellScoped) (ht : c.FullyApplied t) (bind : String → Option TypeArg) :
    c.directInterfaces (t.substitute bind) = (c.directInterfaces t).map (TypeRef.substitute bind) := by
  cases hd : c.decl? t with
  | none => rw [directInterfaces, directInterfaces, decl?_substitute, hd, List.map_nil]
  | some d =>
    have hd' : c.decl? (t.substitute bind) = some d := by rw [decl?_substitute, hd]
    rw [directInterfaces_fullyApplied hd ht, directInterfaces_fullyApplied hd' (fullyApplied_substitute bind ht),
      List.map_map, TypeRef.substitute_args]
    apply List.map_congr_left
    intro i hi
    exact (TypeDecl.substitute_binding (ht d hd) (hc.scope d (decl?_eq_some_iff.1 hd).1 i hi) bind).symm

theorem decl?_applied (hd : d ∈ c) (args : List TypeArg) : c.decl? (d.applied args) = some d :=
  decl?_eq_some_iff.2 ⟨hd, rfl⟩

theorem fullyApplied_applied (hd : d ∈ c) {args : List TypeArg} (hargs : args.length = d.genericParams.length) :
    c.FullyApplied (d.applied args) := by
  intro d' hd'
  rw [decl?_applied hd args] at hd'
  cases hd'
  exact hargs

/-- what an application declares is what its definition declares, with the arguments put in -/
theorem directInterfaces_applied (hc : c.WellScoped) (hd : d ∈ c) {args : List TypeArg}
    (hargs : args.length = d.genericParams.length) :
    c.directInterfaces (d.applied args) = (c.directInterfaces d.opened).map (TypeRef.substitute (d.binding args)) := by
  rw [directInterfaces_fullyApplied (decl?_applied hd args) (fullyApplied_applied hd hargs),
    directInterfaces_fullyApplied (t := d.opened) (decl?_applied hd d.params) (fullyApplied_applied hd d.params_length), List.map_map]
  apply List.map_congr_left
  intro i hi
  exact (TypeDecl.substitute_binding_params hargs (hc.scope d hd i hi)).symm

/-- the interfaces of a declared type applied to arguments are those that it has with its parameters left open, each with the
arguments put in for the parameters -/
structure Instantiates (c : Catalog) (d : TypeDecl) (args : List TypeArg) : Prop where
  interfaces : c.allInterfaces (d.applied args) =
    .ofList ((c.allInterfaces d.opened).toList.map (TypeRef.substitute (d.binding args)))
  /-- so each of those is implemented, with the arguments put in -/
  implements : ∀ i ∈ c.allInterfaces d.opened, c.implements (d.applied args) (i.substitute (d.binding args)) = true
  /-- and the same definitions are implemented -/
  definitions : ∀ wanted : TypeRef, (∀ u, .closed u ∉ wanted.args) →
    (c.implements (d.applied args) wanted = true ↔ c.implements d.opened wanted = true)

/-- **The closure commutes with instantiation.** Where declarations are well scoped, the interfaces of an application are found
by putting the arguments into those that its definition has with open parameters, if the search for the latter is not cut
off. -/
theorem interfaces_instantiated (hc : c.WellScoped) (hd : d ∈ c) {args : List TypeArg}
    (hargs : args.length = d.genericParams.length) (hsmall : (c.allInterfaces d.opened).size < closureBound) :
    c.Instantiates d args := by
  have hinterfaces : c.allInterfaces (d.applied args) =
      .ofList ((c.allInterfaces d.opened).toList.map (TypeRef.substitute (d.binding args))) :=
    allInterfaces_eq_image (directInterfaces_applied hc hd hargs)
      (fun i hi => directInterfaces_substitute hc (hc.fullyApplied hi) _) hsmall
  have hmem (u : TypeRef) : u ∈ c.allInterfaces (d.applied args) ↔
      ∃ i ∈ c.allInterfaces d.opened, i.substitute (d.binding args) = u := by
    rw [hinterfaces, SortedBy.mem_ofList]
    exact List.mem_map
  refine ⟨hinterfaces, ?_, ?_⟩
  · intro i hi
    exact (c.implements_iff _ _).2 ⟨_, (hmem _).2 ⟨i, hi, rfl⟩, .inl rfl⟩
  · intro wanted hopen
    rw [c.implements_definition_iff _ hopen, c.implements_definition_iff _ hopen]
    constructor
    · rintro ⟨u, hu, hname⟩
      obtain ⟨i, hi, rfl⟩ := (hmem u).1 hu
      rw [TypeRef.substitute_name] at hname
      exact ⟨i, hi, hname⟩
    · rintro ⟨i, hi, hname⟩
      refine ⟨_, (hmem _).2 ⟨i, hi, rfl⟩, ?_⟩
      rw [TypeRef.substitute_name, hname]

/-- a class with two parameters that pairs both ways round -/
def zipDecl : TypeDecl :=
  (((TypeDecl.ofClass "Zip").withParam "A" []).withParam "B" []).implementing ⟨"IPair", [.param "A", .param "B"]⟩
    |>.implementing ⟨"IPair", [.param "B", .param "A"]⟩

/-- a pair is a sequence of its first, and of boxes of its second -/
def pairDecl : TypeDecl :=
  (((TypeDecl.ofInterface "IPair").withParam "X" []).withParam "Y" []).implementing ⟨"ISeq", [.param "X"]⟩
    |>.implementing ⟨"ISeq", [.closed ⟨"Box", [.param "Y"]⟩]⟩

def zipCatalog : Catalog := .ofList [zipDecl, pairDecl, (TypeDecl.ofInterface "ISeq").withParam "E" []]

/-- applied to one type twice, two pairs become one, and so do the sequences of both -/
theorem zip_instantiated :
    let cup : TypeArg := .closed ⟨"Cup", []⟩
    zipCatalog.WellScoped ∧ zipDecl ∈ zipCatalog ∧ [cup, cup].length = zipDecl.genericParams.length ∧
      (zipCatalog.allInterfaces zipDecl.opened).size = 6 ∧ zipCatalog.Instantiates zipDecl [cup, cup] ∧
      (zipCatalog.allInterfaces (zipDecl.applied [cup, cup])).toList =
        [⟨"IPair", [cup, cup]⟩, ⟨"ISeq", [.closed ⟨"Box", [cup]⟩]⟩, ⟨"ISeq", [cup]⟩] := by
  intro cup
  have hc : zipCatalog.WellScoped := by
    constructor
    · show ∀ d ∈ zipCatalog.toList, ∀ i ∈ d.interfaces, ∀ p ∈ i.openNames, ∃ q ∈ d.genericParams, q.name = p
      decide
    · show ∀ d ∈ zipCatalog.toList, ∀ i ∈ d.interfaces, ∀ e ∈ zipCatalog.decl? i, i.arity = e.genericParams.length
      decide
  have hd : zipDecl ∈ zipCatalog := by
    show zipDecl ∈ zipCatalog.toList
    decide
  have hsize : (zipCatalog.allInterfaces zipDecl.opened).size = 6 := by decide
  exact ⟨hc, hd, rfl, hsize, interfaces_instantiated hc hd rfl (by rw [hsize]; decide), by decide⟩

end Catalog

end MixinPlanner
