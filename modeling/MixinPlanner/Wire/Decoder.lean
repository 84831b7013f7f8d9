/-
Reading values out of documents.

A decoder takes a reading apart in the order of the text and yields the value that it writes, or the first fault. Where
the document comes from makes a small difference to what is at fault, so decoders are told (`Source`): a document read
straight from its text, a value that was read before, one that had to be held until its tag was known, or a table of settings.

`decode` closes the matter for a whole text: the value first, and then nothing but blanks.
-/
import MixinPlanner.Json.Reader
import MixinPlanner.SortedBy
import MixinPlanner.Wire.Fault

namespace MixinPlanner.Wire

/-- where a document comes from -/
inductive Source where
  | text
  | value
  | held
  | table
  deriving DecidableEq

/-- reads a value out of a document, or says what is wrong first -/
abbrev Decoder (α : Type) := Source → Reading → Except Fault α

/-- the fault of a value that is not of the kind asked for: it may not even be well formed -/
def notOfKind : Reading → Fault
  | .broken | .string none => .malformed
  | .number n => if n.isFinite then .mismatch else .malformed
  | _ => .mismatch

/-- what is at fault when an array holds more than its record has fields -/
def surplus : Source → Option Fault
  | .text => some .malformed
  | .value | .held => some .mismatch
  | .table => none

/-! ## Single values -/

/-- a text -/
def string : Decoder String := fun _ r =>
  match r with
  | .string (some s) => .ok s
  | r => .error (notOfKind r)

/-- a truth value -/
def bool : Decoder Bool := fun _ r =>
  match r with
  | .bool b => .ok b
  | r => .error (notOfKind r)

/-- a natural number below a bound -/
def below (bound : Nat) : Decoder Nat := fun _ r =>
  match r with
  | .number n =>
    match n.toInt? with
    | some (.ofNat m) => if m < bound then .ok m else .error (notOfKind r)
    | _ => .error (notOfKind r)
  | r => .error (notOfKind r)

/-- a natural number of 32 bits -/
def nat32 : Decoder Nat := below (Nat.pow 2 32)

/-- a natural number of 64 bits -/
def nat64 : Decoder Nat := below (Nat.pow 2 64)

/-- a value, or nothing for `null` -/
def optional {α : Type} (d : Decoder α) : Decoder (Option α) := fun src r =>
  match r with
  | .null => .ok none
  | r => (d src r).map some

/-- a type reference, written as text -/
def typeRef : Decoder TypeRef := fun src r => do
  match TypeRef.parse (← string src r) with
  | .ok t => .ok t
  | .error e => .error (.badType e)

/-- any document whose numbers are integers, as a value -/
def json : Decoder Json := fun _ r =>
  match r.toJson? with
  | some j => .ok j
  | none => .error (if r.isSound then .mismatch else .malformed)

/-! ## Many values -/

/-- the items of an array in turn, up to the closing bracket -/
def itemsOf {α : Type} (d : Decoder α) (src : Source) : Items → Except Fault (List α)
  | .closed => .ok []
  | .broken => .error .malformed
  | .cons r rest => do
    let a ← d src r
    let more ← itemsOf d src rest
    return a :: more

/-- a list -/
def list {α : Type} (d : Decoder α) : Decoder (List α) := fun src r =>
  match r with
  | .array items => itemsOf d src items
  | .deep _ => .error .malformed
  | r => .error (notOfKind r)

/-- a set, in any order and with repetitions -/
def set {α : Type} [Ord α] [Std.TransOrd α] (d : Decoder α) : Decoder (SortedSet α) := fun src r =>
  (list d src r).map SortedBy.ofList

/-- the members of an object in turn, up to the closing brace -/
def membersOf {κ α : Type} (key : String → Except Fault κ) (d : Decoder α) (src : Source) :
    Members → Except Fault (List (κ × α))
  | .closed => .ok []
  | .broken | .cons none _ _ => .error .malformed
  | .cons (some k) r rest => do
    let k ← key k
    let a ← d src r
    let more ← membersOf key d src rest
    return (k, a) :: more

/-- a table from keys to values: of two members with one key the later stands -/
def table {κ α : Type} [Ord κ] [Std.TransOrd κ] (key : String → Except Fault κ) (d : Decoder α) :
    Decoder (SortedTable κ α) := fun src r =>
  match r with
  | .object members => (membersOf key d src members).map SortedBy.ofList
  | .deep _ => .error .malformed
  | r => .error (notOfKind r)

/-- a key that is itself the text of a type reference -/
def typeKey (k : String) : Except Fault TypeRef :=
  match TypeRef.parse k with
  | .ok t => .ok t
  | .error e => .error (.badType e)

/-! ## Alternatives -/

/-- the alternative of a name -/
def variant {α : Type} (variants : List (String × α)) (name : String) : Except Fault α :=
  match variants.lookup name with
  | some a => .ok a
  | none => .error (.unknownVariant name (variants.map Prod.fst))

/-- whether what stands under the name of an alternative is nothing. An empty object is, when it was held. -/
def isNothing : Source → Reading → Bool
  | _, .null => true
  | .held, .object .closed => true
  | _, _ => false

/-- one of several named values: its name, or an object with the name as its only key and nothing under it -/
def named {α : Type} (variants : List (String × α)) : Decoder α := fun src r =>
  match r with
  | .string (some s) => variant variants s
  | .object members =>
    if src = .value ∨ src = .held then
      match members with
      | .cons (some k) r .closed => do
        let a ← variant variants k
        if isNothing src r then return a else throw .mismatch
      | _ => .error .mismatch
    else
      match members with
      | .cons (some k) r rest => do
        let a ← variant variants k
        match r, rest with
        | .null, .closed => .ok a
        | .null, _ => .error .malformed
        | r, _ => .error (notOfKind r)
      | _ => .error .malformed
  | _ => .error (if src = .text then .malformed else .mismatch)

/-- the name that tells the alternatives apart; a held one may be its position instead -/
def tagName {α : Type} (variants : List (String × α)) : Decoder α := fun src r =>
  match src, r with
  | .held, .number n =>
    match n.toInt? with
    | some (.ofNat i) => (variants[i]?).elim (.error .mismatch) fun v => .ok v.2
    | _ => .error .mismatch
  | src, r => do variant variants (← string src r)

/-- the tag of an object, and its other members, all of them held -/
def splitTag {α : Type} (tag : String) (read : Reading → Except Fault α) (found : Option α) :
    Members → Except Fault (Option α × List (String × Reading))
  | .closed => .ok (found, [])
  | .broken | .cons none _ _ => .error .malformed
  | .cons (some k) r rest =>
    if k = tag then do
      if found.isSome then throw (.duplicateField tag)
      splitTag tag read (some (← read r)) rest
    else do
      unless r.isSound do throw .malformed
      let (a, more) ← splitTag tag read found rest
      return (a, (k, r) :: more)

/-- a value of one of several kinds: an object with the tag among its members, or an array that begins with the tag. The
rest is held until the tag is known. -/
def tagged {α : Type} (tag : String) (variants : List (String × Decoder α)) : Decoder α := fun src r =>
  match r with
  | .object members => do
    match ← splitTag tag (tagName variants src) none members with
    | (some d, rest) => d .held (.object (.ofList rest))
    | (none, _) => .error (.missingField tag)
  | .array .closed => .error (.missingField tag)
  | .array .broken => .error .malformed
  | .array (.cons r rest) => do
    let d ← tagName variants src r
    unless Reading.soundItems rest do throw .malformed
    d .held (.array rest)
  | .deep _ => .error .malformed
  | r => .error (notOfKind r)

/-- an alternative without fields: whatever other members the object has, and no other item in the array -/
def nothingMore {α : Type} (a : α) : Decoder α := fun _ r =>
  match r with
  | .object _ | .array .closed => .ok a
  | _ => .error .mismatch

/-! ## Whole texts -/

/-- the value that a whole text writes -/
def decode {α : Type} (d : Decoder α) (text : String) : Except Fault α := do
  let (r, clean) := Reading.ofText text
  let a ← d .text r
  if clean then return a else throw .malformed

end MixinPlanner.Wire
