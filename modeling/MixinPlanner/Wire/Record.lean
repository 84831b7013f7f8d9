/-
Records: values with named fields.

A record is written as an object with a member for each field, in any order, or as an array with the fields in their own
order. The faults of its fields are put in their places in the text and the earliest is reported; that a field is missing
shows only at the end, after everything else.

`Record` is applicative: a record is described by its constructor and its fields, `Point <$> field "x" nat64 <*> field "y"
nat64`, and the description serves both written forms.
-/
import MixinPlanner.Wire.Decoder

namespace MixinPlanner.Wire

/-- a fault and its place: the index of the member that it is in, their count for the end, one more for what is missing -/
structure Placed where
  place : Nat
  fault : Fault

/-- two results with the earlier of their faults, if there is any -/
def both {α β γ : Type} (f : α → β → γ) : Except Placed α → Except Placed β → Except Placed γ
  | .ok a, .ok b => .ok (f a b)
  | .error p, .ok _ => .error p
  | .ok _, .error q => .error q
  | .error p, .error q => .error (if q.place < p.place then q else p)

/-- the fields of a record as they are found in a document -/
structure Found where
  source : Source
  /-- whether the document gives the fields by name -/
  byName : Bool
  entries : List (String × Reading)

/-- a description of a record: the names of its fields in order, and how to read it from what was found -/
structure Record (α : Type) where
  names : List String
  read : Found → Except Placed α

namespace Record

instance : Functor Record where
  map f r := ⟨r.names, fun found => (r.read found).map f⟩

instance : Pure Record where
  pure a := ⟨[], fun _ => .ok a⟩

instance : Seq Record where
  seq f x := ⟨f.names ++ (x ()).names, fun found => both (· ·) (f.read found) ((x ()).read found)⟩

/-- the values given for a name, with their places -/
def given (name : String) (entries : List (String × Reading)) : List (Nat × Reading) :=
  entries.zipIdx.filterMap fun e => if e.1.1 = name then some (e.2, e.1.2) else none

/-- a field with what it is when it is missing, if it may be -/
def fieldOr {α : Type} (name : String) (absent : Option α) (d : Decoder α) : Record α where
  names := [name]
  read found :=
    match given name found.entries with
    | [] =>
      match absent with
      | some a => .ok a
      | none => .error ⟨found.entries.length + 1, if found.byName then .missingField name else .mismatch⟩
    | (i, r) :: later =>
      match d found.source r with
      | .error f => .error ⟨i, f⟩
      | .ok a =>
        match later with
        | [] => .ok a
        | (j, _) :: _ => .error ⟨j, .duplicateField name⟩

/-- a field that has to be there -/
def field {α : Type} (name : String) (d : Decoder α) : Record α := fieldOr name none d

/-- what becomes of members that are no fields -/
inductive Others where
  | ignored
  | refused
  | held

/-- the faults of the members that are no fields -/
def others (names : List String) (policy : Others) (entries : List (String × Reading)) : Except Placed Unit :=
  entries.zipIdx.foldl (fun soFar e =>
    both (fun _ _ => ()) soFar
      (if e.1.1 ∈ names then .ok ()
      else
        match policy with
        | .ignored => if e.1.2.isWellFormed then .ok () else .error ⟨e.2, .malformed⟩
        | .refused => .error ⟨e.2, .unknownField e.1.1 names⟩
        | .held => if e.1.2.isSound then .ok () else .error ⟨e.2, .malformed⟩)) (.ok ())

/-- the fault of an end that is no closing bracket -/
def ending (count : Nat) (closed : Bool) : Except Placed Unit :=
  if closed then .ok () else .error ⟨count, .malformed⟩

/-- the fault of items beyond the last field -/
def excess (source : Source) (fields items : Nat) : Except Placed Unit :=
  match surplus source with
  | some fault => if fields < items then .error ⟨fields, fault⟩ else .ok ()
  | none => .ok ()

/-- a record from the members of an object -/
def ofMembers {α : Type} (r : Record α) (policy : Others) (source : Source) (members : Members) : Except Fault α :=
  let (entries, closed) := members.split
  let read := r.read ⟨source, true, entries⟩
  let rest := both (fun _ _ => ()) (others r.names policy entries) (ending entries.length closed)
  (both (fun a _ => a) read rest).mapError Placed.fault

/-- a record from the items of an array -/
def ofItems {α : Type} (r : Record α) (source : Source) (items : Items) : Except Fault α :=
  let (items, closed) := items.split
  let read := r.read ⟨source, false, r.names.zip items⟩
  let rest := both (fun _ _ => ()) (excess source r.names.length items.length) (ending items.length closed)
  (both (fun a _ => a) read rest).mapError Placed.fault

/-- the decoder of a record, from an object or an array -/
def decoder {α : Type} (r : Record α) (policy : Others) : Decoder α := fun source doc =>
  match doc with
  | .object members => r.ofMembers policy source members
  | .array items => r.ofItems source items
  | .deep _ => .error .malformed
  | doc => .error (notOfKind doc)

/-- the decoder of a record from an object whose other members belong to a second record: the fields here come first -/
def alongside {α β : Type} (r : Record α) (d : α → Decoder β) : Decoder β := fun source doc =>
  match doc with
  | .object members => do
    let a ← r.ofMembers .held source members
    d a .held (.object (.ofList (members.split.1.filter fun e => e.1 ∉ r.names)))
  | .deep _ => .error .malformed
  | doc => .error (notOfKind doc)

end Record

end MixinPlanner.Wire
