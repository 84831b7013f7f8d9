/-
Arguments in the place of parameters.

Substitution goes through a reference once: what it puts in is not gone through again. So one substitution after another is one
substitution (`substitute_substitute`), and what a parameter that a reference does not mention is bound to makes no difference
(`substitute_congr`, `substitute_eq_self`). All this is shown for arguments, by `TypeArg.induct`: what holds of an argument if it
holds of those within it holds of all.

A declaration binds its parameters to the arguments in their positions. It binds every parameter of its own
(`exists_binding`), none besides (`binding_eq_none`), and a parameter that stands for itself to itself (`binding_params`); what
is done to the arguments is done to what they are bound to (`binding_map`).
-/
import Mathlib.Tactic
import MixinPlanner.Catalog

namespace MixinPlanner

/-! ## Arguments within arguments -/

namespace TypeArg

mutual

/-- what holds of an argument if it holds of those that it has itself holds of all arguments -/
@[elab_as_elim]
theorem induct {motive : TypeArg → Prop} (param : ∀ p, motive (.param p))
    (closed : ∀ t : TypeRef, (∀ a ∈ t.args, motive a) → motive (.closed t)) (a : TypeArg) : motive a := by
  cases a with
  | param p => exact param p
  | closed t =>
    cases t with
    | mk name args => exact closed ⟨name, args⟩ (inductAll param closed args)

theorem inductAll {motive : TypeArg → Prop} (param : ∀ p, motive (.param p))
    (closed : ∀ t : TypeRef, (∀ a ∈ t.args, motive a) → motive (.closed t)) (args : List TypeArg) :
    ∀ a ∈ args, motive a := by
  cases args with
  | nil => exact List.forall_mem_nil _
  | cons a rest => exact List.forall_mem_cons.2 ⟨induct param closed a, inductAll param closed rest⟩

end

end TypeArg

namespace TypeRef

/-- a reference is its name and its arguments -/
theorem eq_of_parts {t u : TypeRef} (hname : t.name = u.name) (hargs : t.args = u.args) : t = u := by
  cases t
  cases u
  cases hname
  cases hargs
  rfl

/-! ## Name and arguments -/

/-- substitution leaves the name -/
theorem substitute_name (bind : String → Option TypeArg) (t : TypeRef) : (t.substitute bind).name = t.name := by
  cases t with
  | mk name args => rfl

theorem substituteAll_eq_map (bind : String → Option TypeArg) (args : List TypeArg) :
    substituteAll bind args = args.map (substituteArg bind) := by
  induction args with
  | nil => rfl
  | cons a rest ih => rw [substituteAll, ih, List.map_cons]

/-- substitution is carried out in each argument -/
theorem substitute_args (bind : String → Option TypeArg) (t : TypeRef) :
    (t.substitute bind).args = t.args.map (substituteArg bind) := by
  cases t with
  | mk name args => exact substituteAll_eq_map bind args

theorem substitute_arity (bind : String → Option TypeArg) (t : TypeRef) : (t.substitute bind).arity = t.arity := by
  rw [arity, substitute_args, List.length_map, arity]

/-! ## Parameters mentioned -/

mutual

/-- the open parameters that a reference mentions, at every depth -/
def openNames : TypeRef → List String
  | mk _ args => openNamesAll args

/-- the open parameters that a list of arguments mentions -/
def openNamesAll : List TypeArg → List String
  | [] => []
  | a :: rest => openNamesArg a ++ openNamesAll rest

/-- the open parameters that an argument mentions -/
def openNamesArg : TypeArg → List String
  | .param p => [p]
  | .closed t => openNames t

end

/-- a reference mentions what its arguments mention -/
theorem openNames_eq_flatMap (t : TypeRef) : t.openNames = t.args.flatMap openNamesArg := by
  cases t with
  | mk name args =>
    rw [openNames, TypeRef.args]
    induction args with
    | nil => rfl
    | cons a rest ih => rw [openNamesAll, ih, List.flatMap_cons]

theorem mem_openNames {t : TypeRef} {p : String} : p ∈ t.openNames ↔ ∃ a ∈ t.args, p ∈ openNamesArg a := by
  rw [openNames_eq_flatMap, List.mem_flatMap]

variable {bind bind' : String → Option TypeArg}

theorem substituteArg_eq_self (a : TypeArg) (h : ∀ p ∈ openNamesArg a, bind p = none) : substituteArg bind a = a := by
  induction a using TypeArg.induct with
  | param p => rw [substituteArg, h p (List.mem_singleton_self p), Option.getD_none]
  | closed t ih =>
    have hargs : (t.substitute bind).args = t.args := by
      rw [substitute_args]
      refine (List.map_congr_left fun a ha => ih a ha fun p hp => ?_).trans (List.map_id' t.args)
      exact h p (mem_openNames.2 ⟨a, ha, hp⟩)
    rw [substituteArg, eq_of_parts (substitute_name bind t) hargs]

/-- a reference that mentions no bound parameter is left as it is -/
theorem substitute_eq_self (bind : String → Option TypeArg) (t : TypeRef) (h : ∀ p ∈ t.openNames, bind p = none) :
    t.substitute bind = t :=
  TypeArg.closed.inj (substituteArg_eq_self (.closed t) h)

theorem substituteArg_congr (a : TypeArg) (h : ∀ p ∈ openNamesArg a, bind p = bind' p) :
    substituteArg bind a = substituteArg bind' a := by
  induction a using TypeArg.induct with
  | param p => rw [substituteArg, substituteArg, h p (List.mem_singleton_self p)]
  | closed t ih =>
    have hargs : (t.substitute bind).args = (t.substitute bind').args := by
      rw [substitute_args, substitute_args]
      refine List.map_congr_left fun a ha => ih a ha fun p hp => ?_
      exact h p (mem_openNames.2 ⟨a, ha, hp⟩)
    rw [substituteArg, substituteArg, eq_of_parts ((substitute_name bind t).trans (substitute_name bind' t).symm) hargs]

/-- bindings that agree on what a reference mentions put the same in -/
theorem substitute_congr (t : TypeRef) (h : ∀ p ∈ t.openNames, bind p = bind' p) : t.substitute bind = t.substitute bind' :=
  TypeArg.closed.inj (substituteArg_congr (.closed t) h)

/-! ## One after another -/

/-- what parameters are bound to by one substitution and then another: what the first binds a parameter to has the second carried
out in it, and what the first does not bind is left to the second -/
def andThen (bind bind' : String → Option TypeArg) (p : String) : Option TypeArg :=
  match bind p with
  | some a => some (substituteArg bind' a)
  | none => bind' p

theorem substituteArg_substituteArg (bind bind' : String → Option TypeArg) (a : TypeArg) :
    substituteArg bind' (substituteArg bind a) = substituteArg (andThen bind bind') a := by
  induction a using TypeArg.induct with
  | param p =>
    rw [substituteArg, substituteArg, andThen]
    cases bind p with
    | none => rw [Option.getD_none, substituteArg]
    | some b => rw [Option.getD_some, Option.getD_some]
  | closed t ih =>
    have hargs : ((t.substitute bind).substitute bind').args = (t.substitute (andThen bind bind')).args := by
      rw [substitute_args, substitute_args, substitute_args, List.map_map]
      exact List.map_congr_left ih
    have hname : ((t.substitute bind).substitute bind').name = (t.substitute (andThen bind bind')).name := by
      rw [substitute_name, substitute_name, substitute_name]
    rw [substituteArg, substituteArg, substituteArg, eq_of_parts hname hargs]

/-- **Substitution composes.** -/
theorem substitute_substitute (bind bind' : String → Option TypeArg) (t : TypeRef) :
    (t.substitute bind).substitute bind' = t.substitute (andThen bind bind') :=
  TypeArg.closed.inj (substituteArg_substituteArg bind bind' (.closed t))

end TypeRef

/-! ## Bindings of a declaration -/

/-- what is done to the values of pairs is done to what is found -/
theorem lookup_map_snd {κ α β : Type} [BEq κ] (f : α → β) (l : List (κ × α)) (k : κ) :
    (l.map (Prod.map id f)).lookup k = (l.lookup k).map f := by
  induction l with
  | nil => rfl
  | cons e l ih =>
    rw [List.map_cons, List.lookup_cons, List.lookup_cons, ih, Prod.map_fst, Prod.map_snd, id]
    cases k == e.1 with
    | true => rfl
    | false => rfl

namespace TypeDecl

variable {d : TypeDecl}

/-- what is no parameter of a declaration is not bound -/
theorem binding_eq_none {p : String} (h : ∀ q ∈ d.genericParams, q.name ≠ p) (args : List TypeArg) :
    d.binding args p = none := by
  rw [binding, List.lookup_eq_none_iff]
  intro pair hpair
  obtain ⟨hname, -⟩ := List.of_mem_zip (List.mem_reverse.1 hpair)
  obtain ⟨q, hq, hqname⟩ := List.mem_map.1 hname
  rw [bne_iff_ne, ← hqname]
  exact (h q hq).symm

/-- what a parameter is bound to stands in the position of a parameter with its name -/
theorem mem_zip_of_binding {args : List TypeArg} {p : String} {a : TypeArg} (h : d.binding args p = some a) :
    (p, a) ∈ (d.genericParams.map GenericParam.name).zip args := by
  obtain ⟨l₁, l₂, hsplit, -⟩ := List.lookup_eq_some_iff.1 h
  apply List.mem_reverse.1
  rw [hsplit]
  exact List.mem_append_right _ List.mem_cons_self

/-- every parameter is bound if there are as many arguments -/
theorem exists_binding {args : List TypeArg} (hargs : args.length = d.genericParams.length) {q : GenericParam}
    (hq : q ∈ d.genericParams) : ∃ a, d.binding args q.name = some a := by
  rw [← Option.ne_none_iff_exists', binding, Ne, List.lookup_eq_none_iff]
  intro hnone
  have hnames : q.name ∈ ((d.genericParams.map GenericParam.name).zip args).map Prod.fst := by
    rw [List.map_fst_zip (by rw [List.length_map, hargs])]
    exact List.mem_map_of_mem hq
  obtain ⟨pair, hpair, hname⟩ := List.mem_map.1 hnames
  have hne := hnone pair (List.mem_reverse.2 hpair)
  rw [hname, bne_self_eq_false] at hne
  cases hne

/-- what is done to the arguments is done to what they are bound to -/
theorem binding_map (f : TypeArg → TypeArg) (args : List TypeArg) (p : String) :
    d.binding (args.map f) p = (d.binding args p).map f := by
  rw [binding, binding, List.zip_map_right, ← List.map_reverse, lookup_map_snd]

/-- the parameters of a declaration, each standing for itself -/
def params (d : TypeDecl) : List TypeArg := d.genericParams.map fun q => .param q.name

theorem params_length (d : TypeDecl) : d.params.length = d.genericParams.length := List.length_map _

/-- a parameter that stands for itself is bound to itself -/
theorem binding_params {q : GenericParam} (hq : q ∈ d.genericParams) : d.binding d.params q.name = some (.param q.name) := by
  obtain ⟨a, ha⟩ := exists_binding d.params_length hq
  have hmem := mem_zip_of_binding ha
  rw [params, List.zip_map', List.mem_map] at hmem
  obtain ⟨q', -, heq⟩ := hmem
  obtain ⟨hname, rfl⟩ := Prod.mk.inj heq
  rw [ha, hname]

end TypeDecl

end MixinPlanner
