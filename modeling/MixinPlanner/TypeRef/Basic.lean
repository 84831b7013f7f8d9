/-
Type references: the name of a type together with its generic arguments.

An argument is an open parameter, known by its name, or a closed type reference in turn, so that a generic definition
applied to arguments is an identity of its own: `Logger<?T>` names the definition with its parameter left open,
`Logger<Order>` one application of it.

The texts of names and of open parameters are arbitrary strings here. `TypeRef.Valid` is the class of references whose
names are spelled as names at every depth; everything that is read from text lies in it.
-/

namespace MixinPlanner

mutual

/-- a type: its name and its generic arguments -/
inductive TypeRef where
  | mk (name : String) (args : List TypeArg)

/-- a generic argument: an open parameter, or a type -/
inductive TypeArg where
  | param (name : String)
  | closed (type : TypeRef)

end

instance : Inhabited TypeRef := ⟨⟨"", []⟩⟩

instance : Inhabited TypeArg := ⟨.param ""⟩

/-- whether an argument is an open parameter -/
def TypeArg.isParam : TypeArg → Bool
  | .param _ => true
  | .closed _ => false

/-- characters that may begin a name: ASCII letters and the underscore -/
def isNameStart (c : Char) : Bool :=
  c.isAlpha || c == '_'

/-- characters that may follow in a name: ASCII letters and digits, underscore, dot and plus sign -/
def isNameRest (c : Char) : Bool :=
  c.isAlphanum || c == '_' || c == '.' || c == '+'

/-- whether a text is spelled as a name -/
def isName (s : String) : Bool :=
  match s.toList with
  | [] => false
  | c :: rest => isNameStart c && rest.all isNameRest

namespace TypeRef

/-- the name before the arguments -/
def name : TypeRef → String
  | mk name _ => name

/-- the generic arguments in order -/
def args : TypeRef → List TypeArg
  | mk _ args => args

/-- the number of arguments -/
def arity (t : TypeRef) : Nat := t.args.length

/-- the same name with other arguments -/
def withArgs (t : TypeRef) (args : List TypeArg) : TypeRef := mk t.name args

/-- the definition that a reference applies: its name alone -/
def definition (t : TypeRef) : TypeRef := t.withArgs []

/-- whether a reference stands for a definition: it has no arguments, or open ones only -/
def isDefinition (t : TypeRef) : Bool := t.args.all TypeArg.isParam

/-- a reference stands for a definition when it has no closed argument -/
theorem isDefinition_iff (t : TypeRef) : t.isDefinition = true ↔ ∀ u, .closed u ∉ t.args := by
  unfold isDefinition
  rw [List.all_eq_true]
  constructor
  · intro h u hu
    exact absurd (h _ hu) (by simp [TypeArg.isParam])
  · intro h a ha
    cases a with
    | param p => rfl
    | closed u => exact absurd ha (h u)

/-- whether two references apply the same definition -/
def sameDefinition (t u : TypeRef) : Bool := t.name == u.name

mutual

/-- whether some argument, at any depth, is an open parameter -/
def isOpen : TypeRef → Bool
  | mk _ args => anyOpen args

/-- whether some argument of a list is open, or has an open one within -/
def anyOpen : List TypeArg → Bool
  | [] => false
  | a :: rest => openArg a || anyOpen rest

/-- whether an argument is open, or has an open one within -/
def openArg : TypeArg → Bool
  | .param _ => true
  | .closed t => isOpen t

end

mutual

/-- a reference with its open parameters, at any depth, replaced by what they are bound to. A parameter without a
binding stays open, and what is put in is not substituted again. -/
def substitute (bind : String → Option TypeArg) : TypeRef → TypeRef
  | mk name args => mk name (substituteAll bind args)

/-- substitution in a list of arguments -/
def substituteAll (bind : String → Option TypeArg) : List TypeArg → List TypeArg
  | [] => []
  | a :: rest => substituteArg bind a :: substituteAll bind rest

/-- substitution in one argument -/
def substituteArg (bind : String → Option TypeArg) : TypeArg → TypeArg
  | .param p => (bind p).getD (.param p)
  | .closed t => .closed (substitute bind t)

end

mutual

/-- the names of types and parameters, at every depth, are spelled as names -/
def Valid : TypeRef → Prop
  | mk name args => isName name ∧ ValidAll args

/-- validity of every argument of a list -/
def ValidAll : List TypeArg → Prop
  | [] => True
  | a :: rest => ValidArg a ∧ ValidAll rest

/-- validity of one argument -/
def ValidArg : TypeArg → Prop
  | .param p => isName p
  | .closed t => Valid t

end

end TypeRef

end MixinPlanner
