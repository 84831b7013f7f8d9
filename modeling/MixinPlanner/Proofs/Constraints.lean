/-
Constraints of generic parameters are taken as they are written.

A constraint may mention the parameters of its own declaration, as in a parameter `T` that has to be comparable with `?T`. The
check does not put the arguments in their place. What an argument has to provide is the constraint as it is written: with open
arguments only, any application of its definition will do, so the check lets too much pass; with a closed argument in which a
parameter stands open, no closed type will do, so the check refuses what meets the constraint.
- `provides_of_open`, `provides_of_closed`: what provides a constraint as it is written;
- `constraints_as_written`: what the check of a mixin's arguments says, and where it says the same as for the constraints with
  the arguments put in.
-/
import MixinPlanner.Proofs.InterfaceClosure
import MixinPlanner.Proofs.Rejection
import MixinPlanner.Proofs.Substitution

namespace MixinPlanner

/-! ## What provides a constraint -/

namespace Catalog

variable (catalog : Catalog)

/-- a type is among another type and its interfaces -/
def Among (t u : TypeRef) : Prop := t = u ∨ t ∈ catalog.allInterfaces u

theorem provides_iff (u i : TypeRef) : catalog.provides u i = true ↔
    ∃ t, catalog.Among t u ∧ (t = i ∨ ((∀ v, .closed v ∉ i.args) ∧ t.name = i.name)) := by
  rw [provides, Bool.or_eq_true, TypeRef.answers_iff, implements_iff]
  constructor
  · rintro (h | ⟨t, ht, h⟩)
    · exact ⟨u, .inl rfl, h⟩
    · exact ⟨t, .inr ht, h⟩
  · rintro ⟨t, rfl | ht, h⟩
    · exact .inl h
    · exact .inr ⟨t, ht, h⟩

/-- a constraint with open arguments only is provided by every application of its definition -/
theorem provides_of_open {i : TypeRef} (h : ∀ v, .closed v ∉ i.args) (u : TypeRef) :
    catalog.provides u i = true ↔ ∃ t, catalog.Among t u ∧ t.name = i.name := by
  rw [provides_iff]
  refine exists_congr fun t => and_congr_right fun _ => ?_
  constructor
  · rintro (rfl | ⟨-, hname⟩)
    · rfl
    · exact hname
  · exact fun hname => .inr ⟨h, hname⟩

/-- a constraint with a closed argument is provided by itself only -/
theorem provides_of_closed {i v : TypeRef} (h : .closed v ∈ i.args) (u : TypeRef) :
    catalog.provides u i = true ↔ catalog.Among i u := by
  rw [provides_iff]
  constructor
  · rintro ⟨t, ht, rfl | ⟨hopen, -⟩⟩
    · exact ht
    · exact absurd h (hopen v)
  · exact fun hi => ⟨i, hi, .inl rfl⟩

end Catalog

/-! ## The check -/

/-- the closed arguments of an application of a declared type provide every constraint of their parameters, each put in some
form before -/
def TypeDecl.Meets (d : TypeDecl) (catalog : Catalog) (args : List TypeArg) (form : TypeRef → TypeRef) : Prop :=
  ∀ p u, (p, .closed u) ∈ d.genericParams.zip args → ∀ i ∈ p.constraints, catalog.provides u (form i) = true

namespace Context

variable (catalog : Catalog) (c : Context)

/-- nothing is reported of a mixin's arguments -/
def FitsArguments (m : TypeRef) : Prop :=
  ∀ expected actual reason, .invalidArguments c.target m expected actual reason ∉ c.problems catalog

theorem fitsArguments_iff {e : MixinEntry} (he : e ∈ c.mixins) :
    c.FitsArguments catalog e.mixin ↔ catalog.TakesArguments e.mixin := by
  rw [← catalog.argumentFault_eq_none]
  constructor
  · intro h
    rw [← Option.isNone_iff_eq_none, ← Bool.not_eq_false, Option.isNone_eq_false_iff, Option.isSome_iff_exists]
    rintro ⟨⟨expected, reason⟩, hfault⟩
    refine h expected e.mixin.arity reason (List.mem_append_left _ (List.mem_flatMap.2 ⟨e, he, ?_⟩))
    refine List.mem_append_right _ (Option.mem_toList.2 ?_)
    rw [argumentProblem, hfault, Option.map_some]
  · intro h expected actual reason hmem
    rcases List.mem_append.1 hmem with hmem | hmem
    · obtain ⟨e', -, hmem⟩ := List.mem_flatMap.1 hmem
      rcases List.mem_append.1 hmem with hmem | hmem
      · obtain ⟨k, -, hk⟩ := List.mem_map.1 hmem
        cases hk
      · obtain ⟨fault, hfault, heq⟩ := Option.map_eq_some_iff.1 (Option.mem_toList.1 hmem)
        obtain ⟨-, hmixin, -⟩ := Problem.invalidArguments.inj heq
        rw [hmixin, h] at hfault
        cases hfault
    · obtain ⟨i, -, hi⟩ := List.mem_filterMap.1 hmem
      obtain ⟨reason', -, heq⟩ := Option.map_eq_some_iff.1 hi
      cases heq

end Context

/-- what the check of a mixin's arguments says, where the mixin applies a declaration to as many arguments as it has
parameters -/
structure ChecksAsWritten (catalog : Catalog) (c : Context) (m : TypeRef) (d : TypeDecl) : Prop where
  /-- the arguments have to provide the constraints as they are written -/
  written : c.FitsArguments catalog m ↔ d.Meets catalog m.args id
  /-- one with open arguments only is provided by every application of its definition -/
  lenient : ∀ p ∈ d.genericParams, ∀ i ∈ p.constraints, (∀ v, .closed v ∉ i.args) → ∀ u,
    catalog.provides u i = true ↔ ∃ t, catalog.Among t u ∧ t.name = i.name
  /-- one with a closed argument by that very type only, whatever is open in it -/
  literal : ∀ p ∈ d.genericParams, ∀ i ∈ p.constraints, ∀ v, .closed v ∈ i.args → ∀ u,
    catalog.provides u i = true ↔ catalog.Among i u
  /-- where all are of the first kind, what provides them with the arguments put in is let pass -/
  passes : (∀ p ∈ d.genericParams, ∀ i ∈ p.constraints, ∀ v, .closed v ∉ i.args) →
    d.Meets catalog m.args (TypeRef.substitute (d.binding m.args)) → c.FitsArguments catalog m
  /-- where none mentions a parameter of the declaration, they are the constraints with the arguments put in -/
  instantiated : (∀ p ∈ d.genericParams, ∀ i ∈ p.constraints, ∀ q ∈ d.genericParams, q.name ∉ i.openNames) →
    (c.FitsArguments catalog m ↔ d.Meets catalog m.args (TypeRef.substitute (d.binding m.args)))

namespace TypeDecl

variable {d : TypeDecl} {catalog : Catalog} {args : List TypeArg}

theorem meets_congr {form form' : TypeRef → TypeRef} (h : ∀ p ∈ d.genericParams, ∀ i ∈ p.constraints, form i = form' i) :
    d.Meets catalog args form ↔ d.Meets catalog args form' := by
  refine forall₃_congr fun p u hmem => forall₂_congr fun i hi => ?_
  rw [h p (List.of_mem_zip hmem).1 i hi]

/-- with one parameter, its constraints are asked of the one argument -/
theorem meets_singleton {p : GenericParam} (hp : d.genericParams = [p]) (u : TypeRef) (form : TypeRef → TypeRef) :
    d.Meets catalog [.closed u] form ↔ ∀ i ∈ p.constraints, catalog.provides u (form i) = true := by
  simp [Meets, hp]

/-- what provides a constraint with the arguments put in provides it as it is written, if that has open arguments only -/
theorem Meets.written (h : d.Meets catalog args (TypeRef.substitute (d.binding args)))
    (hopen : ∀ p ∈ d.genericParams, ∀ i ∈ p.constraints, ∀ v, .closed v ∉ i.args) : d.Meets catalog args id := by
  intro p u hmem i hi
  obtain ⟨t, ht, hanswers⟩ := (catalog.provides_iff u _).1 (h p u hmem i hi)
  refine (catalog.provides_of_open (hopen p (List.of_mem_zip hmem).1 i hi) u).2 ⟨t, ht, ?_⟩
  rcases hanswers with rfl | ⟨-, hname⟩
  · exact TypeRef.substitute_name ..
  · rw [hname, TypeRef.substitute_name]

end TypeDecl

/-- **Constraints are taken as they are written.** A mixin's arguments are let pass exactly if they provide the constraints as
these stand in the declaration. That is less than the constraints with the arguments put in where all arguments of a
constraint are open, it is something else where one is closed and mentions a parameter, and it is the same where no constraint
mentions a parameter of the declaration. -/
theorem constraints_as_written (catalog : Catalog) (c : Context) {e : MixinEntry} (he : e ∈ c.mixins) {d : TypeDecl}
    (hd : catalog.decl? e.mixin = some d) (hn : e.mixin.arity = d.genericParams.length) :
    ChecksAsWritten catalog c e.mixin d := by
  have hwritten : c.FitsArguments catalog e.mixin ↔ d.Meets catalog e.mixin.args id := by
    rw [c.fitsArguments_iff catalog he, Catalog.TakesArguments, hd]
    exact and_iff_right hn
  refine ⟨hwritten, ?_, ?_, ?_, ?_⟩
  · intro p _ i _ hopen u
    exact catalog.provides_of_open hopen u
  · intro p _ i _ v hv u
    exact catalog.provides_of_closed hv u
  · intro hopen hmeets
    exact hwritten.2 (hmeets.written hopen)
  · intro hunmentioned
    rw [hwritten]
    apply TypeDecl.meets_congr
    intro p hp i hi
    symm
    apply TypeRef.substitute_eq_self
    intro name hname
    apply TypeDecl.binding_eq_none
    rintro q hq rfl
    exact hunmentioned p hp i hi q hq hname

/-- the interface of what can be compared with some type -/
def comparableWith (a : TypeArg) : TypeRef := ⟨"IComparable", [a]⟩

/-- a class whose parameter has to be comparable with itself -/
def rankedDecl : TypeDecl := (TypeDecl.ofClass "Ranked").withParam "T" [comparableWith (.param "T")]

/-- a class whose parameter has to be comparable with lists of itself -/
def sortedDecl : TypeDecl := (TypeDecl.ofClass "Sorted").withParam "T" [comparableWith (.closed ⟨"List", [.param "T"]⟩)]

/-- money is comparable with lists of money, and with nothing else -/
def moneyCatalog : Catalog :=
  .ofList [(TypeDecl.ofInterface "IComparable").withParam "T" [], (TypeDecl.ofClass "List").withParam "E" [],
    (TypeDecl.ofClass "Money").implementing (comparableWith (.closed ⟨"List", [.closed ⟨"Money", []⟩]⟩)),
    rankedDecl, sortedDecl]

/-- the two classes applied to money -/
def moneyContext : Context :=
  .build {} ⟨"Cart", []⟩ [.mixin { mixin := ⟨"Ranked", [.closed ⟨"Money", []⟩]⟩ },
    .mixin { mixin := ⟨"Sorted", [.closed ⟨"Money", []⟩]⟩ }]

/-- money is let pass where it has to be comparable with itself, which it is not -/
theorem rankedMoney_as_written : ∃ e ∈ moneyContext.mixins, moneyCatalog.decl? e.mixin = some rankedDecl ∧
    e.mixin.arity = rankedDecl.genericParams.length ∧ ChecksAsWritten moneyCatalog moneyContext e.mixin rankedDecl ∧
      moneyContext.FitsArguments moneyCatalog e.mixin ∧
      ¬ rankedDecl.Meets moneyCatalog e.mixin.args (TypeRef.substitute (rankedDecl.binding e.mixin.args)) := by
  have he : (⟨{ mixin := ⟨"Ranked", [.closed ⟨"Money", []⟩]⟩ }, 0⟩ : MixinEntry) ∈ moneyContext.mixins := by decide
  have hchecks := constraints_as_written moneyCatalog moneyContext he (d := rankedDecl) (by decide) (by decide)
  refine ⟨_, he, by decide, by decide, hchecks, hchecks.written.2 ?_, ?_⟩
  · exact (TypeDecl.meets_singleton rfl _ _).2 (by decide)
  · exact mt (TypeDecl.meets_singleton rfl _ _).1 (by decide)

/-- the arguments are not put into the constraints: money is refused where it has to be comparable with lists of itself,
which it is -/
theorem not_instantiated : ¬ ∀ (catalog : Catalog) (c : Context), ∀ e ∈ c.mixins, ∀ d, catalog.decl? e.mixin = some d →
    e.mixin.arity = d.genericParams.length → (c.FitsArguments catalog e.mixin ↔
      d.Meets catalog e.mixin.args (TypeRef.substitute (d.binding e.mixin.args))) := by
  intro hall
  have he : (⟨{ mixin := ⟨"Sorted", [.closed ⟨"Money", []⟩]⟩ }, 1⟩ : MixinEntry) ∈ moneyContext.mixins := by decide
  have hmeets : sortedDecl.Meets moneyCatalog [.closed ⟨"Money", []⟩]
      (TypeRef.substitute (sortedDecl.binding [.closed ⟨"Money", []⟩])) :=
    (TypeDecl.meets_singleton rfl _ _).2 (by decide)
  have hfits := (hall moneyCatalog moneyContext _ he sortedDecl (by decide) (by decide)).2 hmeets
  have hfault : moneyCatalog.argumentFault ⟨"Sorted", [.closed ⟨"Money", []⟩]⟩ ≠ none := by decide
  exact hfault ((moneyCatalog.argumentFault_eq_none _).2 ((moneyContext.fitsArguments_iff moneyCatalog he).1 hfits))

end MixinPlanner
