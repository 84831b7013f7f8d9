/-
What substitution puts where.

A place in a reference is a path: the positions of the arguments to go through. Parameters are replaced at once: where one stands
comes what it is bound to, as that is, and all types stay where they are (`Replaced`). Substitution does this and is the only
thing that does (`replaced_iff`). Whether what it puts in mentions bound parameters again makes no difference to it.

What a substituted reference mentions is what was mentioned and not bound, and what is mentioned by what was put in
(`mem_openNames_substitute`).

Bindings are finite tables: those of a declaration are the pairs of its parameters and the arguments in their positions
(`TypeDecl.binding_eq_bindings`), and one table after another is a table again (`Bindings.composes_iff`).
-/
import Mathlib.Tactic
import MixinPlanner.Proofs.Members
import MixinPlanner.Proofs.Substitution

namespace MixinPlanner

namespace TypeArg

open TypeRef (substituteArg openNamesArg)

variable {a b : TypeArg} {place : List ℕ} {p : String} {bind : String → Option TypeArg}

/-! ## Places -/

/-- what stands at a place: the argument that is reached through these positions -/
def at? : TypeArg → List ℕ → Option TypeArg
  | a, [] => some a
  | .param _, _ :: _ => none
  | .closed t, i :: place => t.args[i]?.bind fun a => a.at? place

@[simp]
theorem at?_nil (a : TypeArg) : a.at? [] = some a := by
  cases a <;> rfl

theorem at?_cons_eq_some {t : TypeRef} {i : ℕ} : (closed t).at? (i :: place) = some b ↔
    ∃ a, t.args[i]? = some a ∧ a.at? place = some b := by
  rw [at?, Option.bind_eq_some_iff]

/-- a parameter is mentioned exactly if it stands somewhere -/
theorem mem_openNamesArg_iff : p ∈ openNamesArg a ↔ ∃ place, a.at? place = some (.param p) := by
  induction a using induct with
  | param q =>
    rw [openNamesArg, List.mem_singleton]
    constructor
    · rintro rfl
      exact ⟨[], at?_nil _⟩
    · rintro ⟨_ | ⟨i, place⟩, h⟩
      · simpa [eq_comm] using h
      · cases h
  | closed t ih =>
    rw [openNamesArg, TypeRef.mem_openNames]
    constructor
    · rintro ⟨a, ha, hp⟩
      obtain ⟨place, hplace⟩ := (ih a ha).1 hp
      obtain ⟨i, hi⟩ := List.mem_iff_getElem?.1 ha
      exact ⟨i :: place, at?_cons_eq_some.2 ⟨a, hi, hplace⟩⟩
    · rintro ⟨_ | ⟨i, place⟩, h⟩
      · cases h
      · obtain ⟨a, hi, hplace⟩ := at?_cons_eq_some.1 h
        have ha := List.mem_of_getElem? hi
        exact ⟨a, ha, (ih a ha).2 ⟨place, hplace⟩⟩

/-! ## What is put at a place -/

/-- substitution is carried out at every place -/
theorem at?_substituteArg (h : a.at? place = some b) : (substituteArg bind a).at? place = some (substituteArg bind b) := by
  induction place generalizing a with
  | nil =>
    rw [at?_nil, Option.some.injEq] at h
    rw [h, at?_nil]
  | cons i place ih =>
    cases a with
    | param p => cases h
    | closed t =>
      obtain ⟨a, hi, ha⟩ := at?_cons_eq_some.1 h
      refine at?_cons_eq_some.2 ⟨substituteArg bind a, ?_, ih ha⟩
      rw [TypeRef.substitute_args, List.getElem?_map, hi, Option.map_some]

/-- all parameters replaced at once: where one stands in the first argument there stands in the second what it is bound to, as
that is, or the parameter still if it is not bound; and where a type stands there stands one with its name and as many
arguments -/
structure Replaced (bind : String → Option TypeArg) (a b : TypeArg) : Prop where
  params : ∀ place p, a.at? place = some (.param p) → b.at? place = some ((bind p).getD (.param p))
  types : ∀ place t, a.at? place = some (.closed t) →
    ∃ u, b.at? place = some (.closed u) ∧ u.name = t.name ∧ u.arity = t.arity

theorem replaced_substituteArg (bind : String → Option TypeArg) (a : TypeArg) : Replaced bind a (substituteArg bind a) := by
  constructor
  · intro place p hp
    exact at?_substituteArg hp
  · intro place t ht
    exact ⟨t.substitute bind, at?_substituteArg ht, t.substitute_name bind, t.substitute_arity bind⟩

/-- what is replaced in a type is replaced in its arguments -/
theorem Replaced.arg {t u : TypeRef} (h : Replaced bind (closed t) (closed u)) {i : ℕ} (ha : t.args[i]? = some a)
    (hb : u.args[i]? = some b) : Replaced bind a b := by
  have hplace : ∀ {place c}, (closed u).at? (i :: place) = some c → b.at? place = some c := by
    intro place c hc
    rwa [at?, hb, Option.bind_some] at hc
  constructor
  · intro place p hp
    exact hplace (h.params (i :: place) p (at?_cons_eq_some.2 ⟨a, ha, hp⟩))
  · intro place v hv
    obtain ⟨w, hw, hparts⟩ := h.types (i :: place) v (at?_cons_eq_some.2 ⟨a, ha, hv⟩)
    exact ⟨w, hplace hw, hparts⟩

theorem Replaced.eq (h : Replaced bind a b) : b = substituteArg bind a := by
  induction a using induct generalizing b with
  | param p =>
    have hroot := h.params [] p (at?_nil _)
    rwa [at?_nil, Option.some.injEq] at hroot
  | closed t ih =>
    obtain ⟨u, hroot, hname, harity⟩ := h.types [] t (at?_nil _)
    rw [at?_nil, Option.some.injEq] at hroot
    subst hroot
    have hargs : u.args = (t.substitute bind).args := by
      rw [TypeRef.substitute_args]
      refine List.ext_getElem (harity.trans (List.length_map _).symm) fun i hu ht => ?_
      rw [List.length_map] at ht
      rw [List.getElem_map]
      exact ih t.args[i] (List.getElem_mem ht) (h.arg (List.getElem?_eq_getElem ht) (List.getElem?_eq_getElem hu))
    rw [substituteArg, TypeRef.eq_of_parts (hname.trans (t.substitute_name bind).symm) hargs]

/-- **Substitution is simultaneous**: it replaces all parameters at once, and nothing else does. -/
theorem replaced_iff : Replaced bind a b ↔ b = substituteArg bind a :=
  ⟨Replaced.eq, fun h => h ▸ replaced_substituteArg bind a⟩

end TypeArg

namespace TypeRef

variable {t : TypeRef} {p : String} {bind : String → Option TypeArg}

/-- what stands at a place in a reference, which itself stands at the place that is reached through no position -/
def at? (t : TypeRef) (place : List ℕ) : Option TypeArg := (TypeArg.closed t).at? place

/-! ## What is mentioned -/

theorem openNamesArg_substituteArg (a : TypeArg) : openNamesArg (substituteArg bind a) =
    (openNamesArg a).flatMap fun p => openNamesArg ((bind p).getD (.param p)) := by
  induction a using TypeArg.induct with
  | param p => rw [substituteArg, openNamesArg, List.flatMap_singleton]
  | closed t ih =>
    rw [substituteArg, openNamesArg, openNamesArg, openNames_eq_flatMap, openNames_eq_flatMap, substitute_args,
      List.flatMap_map, List.flatMap_assoc]
    exact List.flatMap_congr ih

/-- what is mentioned after a substitution -/
theorem mem_openNames_substitute : p ∈ (t.substitute bind).openNames ↔
    p ∈ t.openNames ∧ bind p = none ∨ ∃ q ∈ t.openNames, ∃ a, bind q = some a ∧ p ∈ openNamesArg a := by
  have hnames : (t.substitute bind).openNames = t.openNames.flatMap fun p => openNamesArg ((bind p).getD (.param p)) :=
    openNamesArg_substituteArg (.closed t)
  rw [hnames, List.mem_flatMap]
  constructor
  · rintro ⟨q, hq, hp⟩
    cases hbind : bind q with
    | none =>
      rw [hbind, Option.getD_none, openNamesArg, List.mem_singleton] at hp
      exact .inl (hp ▸ ⟨hq, hbind⟩)
    | some a =>
      rw [hbind, Option.getD_some] at hp
      exact .inr ⟨q, hq, a, hbind, hp⟩
  · rintro (⟨hp, hbind⟩ | ⟨q, hq, a, hbind, hp⟩)
    · refine ⟨p, hp, ?_⟩
      rw [hbind, Option.getD_none]
      exact List.mem_singleton_self p
    · refine ⟨q, hq, ?_⟩
      rwa [hbind, Option.getD_some]

end TypeRef

/-! ## Finite bindings -/

/-- what parameters are bound to, by their names -/
abbrev Bindings : Type := SortedTable String TypeArg

namespace Bindings

/-- one substitution after another as a single one: the second is carried out in what the first puts in, and counts for the
parameters that the first does not bind -/
def andThen (s r : Bindings) : Bindings :=
  r.insertAll (s.toList.map (Prod.map id (TypeRef.substituteArg r.get?)))

theorem get?_andThen (s r : Bindings) : (s.andThen r).get? = TypeRef.andThen s.get? r.get? := by
  funext p
  rw [andThen, SortedBy.get?_insertAll, ← List.map_reverse, lookup_map_snd, ← s.get?_eq_lookup, TypeRef.andThen]
  cases s.get? p <;> rfl

/-- what bindings have to be for one substitution after another -/
structure Composes (c s r : Bindings) : Prop where
  /-- a parameter in the place of another is bound to what the second binds it to, or stays -/
  param : ∀ p q, s.get? p = some (.param q) → c.get? p = some ((r.get? q).getD (.param q))
  /-- in a type the second is carried out -/
  closed : ∀ p t, s.get? p = some (.closed t) → c.get? p = some (.closed (t.substitute r.get?))
  /-- the second counts for what the first does not bind -/
  rest : ∀ p, s.get? p = none → c.get? p = r.get? p

theorem composes_iff {c s r : Bindings} : c.Composes s r ↔ c = s.andThen r := by
  constructor
  · intro h
    refine SortedBy.eq_of_get?_eq fun p => ?_
    rw [get?_andThen, TypeRef.andThen]
    cases hs : s.get? p with
    | none => exact h.rest p hs
    | some a =>
      cases a with
      | param q => exact h.param p q hs
      | closed t => exact h.closed p t hs
  · rintro rfl
    constructor
    · intro p q hs
      simp only [get?_andThen, TypeRef.andThen, hs, TypeRef.substituteArg]
    · intro p t hs
      simp only [get?_andThen, TypeRef.andThen, hs, TypeRef.substituteArg]
    · intro p hs
      simp only [get?_andThen, TypeRef.andThen, hs]

end Bindings

/-- the bindings of a declaration: its parameters and the arguments in their positions -/
def TypeDecl.bindings (d : TypeDecl) (args : List TypeArg) : Bindings :=
  .ofList ((d.genericParams.map GenericParam.name).zip args)

theorem TypeDecl.binding_eq_bindings (d : TypeDecl) (args : List TypeArg) : d.binding args = (d.bindings args).get? := by
  funext p
  rw [bindings, SortedBy.get?_ofList, binding]

namespace TypeRef

/-- **Substitution composes.** One substitution after another is a single one, with bindings of which it is said what they are
for every parameter. A substitution replaces all parameters at once: at the place of each comes what it is bound to, as that
is. What is mentioned then is what was mentioned and not bound, and what is mentioned by what parameters that were mentioned
are bound to, where a parameter is mentioned if it stands somewhere. The bindings of declarations are of this kind. -/
theorem substitutions_compose :
    (∀ s r c : Bindings, c.Composes s r ↔ c = s.andThen r) ∧
      (∀ (s r : Bindings) (t : TypeRef), (t.substitute s.get?).substitute r.get? = t.substitute (s.andThen r).get?) ∧
      (∀ (s : Bindings) (t u : TypeRef), TypeArg.Replaced s.get? (.closed t) (.closed u) ↔ u = t.substitute s.get?) ∧
      (∀ (s : Bindings) (t : TypeRef) (p : String), p ∈ (t.substitute s.get?).openNames ↔
        p ∈ t.openNames ∧ s.get? p = none ∨ ∃ q ∈ t.openNames, ∃ a, s.get? q = some a ∧ p ∈ openNamesArg a) ∧
      (∀ (t : TypeRef) (p : String), p ∈ t.openNames ↔ ∃ place, t.at? place = some (.param p)) ∧
      ∀ (d : TypeDecl) (args : List TypeArg), d.binding args = (d.bindings args).get? := by
  refine ⟨fun _ _ _ => Bindings.composes_iff, fun s r t => ?_, fun s t u => ?_, fun _ _ _ => mem_openNames_substitute,
    fun t _ => TypeArg.mem_openNamesArg_iff (a := .closed t), fun d args => d.binding_eq_bindings args⟩
  · rw [substitute_substitute, Bindings.get?_andThen]
  · rw [TypeArg.replaced_iff, substituteArg, TypeArg.closed.injEq]

/-- two parameters that are bound to each other change places -/
example : (⟨"Map", [.param "K", .closed ⟨"List", [.param "V"]⟩]⟩ : TypeRef).substitute
    (SortedBy.ofList [("K", .param "V"), ("V", .param "K")] : Bindings).get? =
      ⟨"Map", [.param "V", .closed ⟨"List", [.param "K"]⟩]⟩ := by decide

end TypeRef

end MixinPlanner
