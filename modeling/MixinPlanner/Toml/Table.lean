/-
Tables of TOML as they are put together from the statements of a document.

A table may be named before it is opened and filled from several places, and the rules for that depend on how it came to be
(`Origin`). A header opens a table that was only named on the way to another, and no table twice. A dotted key makes tables
and fills the ones it made, and never one with a header of its own. A header in double brackets adds a row to a list of
tables, and a path that leads through such a list goes on in its last row.
-/
import MixinPlanner.Json.Reading

namespace MixinPlanner.Toml

/-- how a table came to be: by a header of its own, on the way of a header, or on the way of a dotted key -/
inductive Origin where
  | header
  | passed
  | dotted
  deriving DecidableEq

/-- what stands under a key -/
inductive Node where
  | value (r : Reading)
  | table (origin : Origin) (entries : List (String × Node))
  | rows (rows : List (List (String × Node)))

/-- the keys of a table with what stands under them, in the order of their first use -/
abbrev Entries : Type := List (String × Node)

namespace Entries

/-- what stands under a key changed in its place, or put at the end -/
def change (key : String) (f : Option Node → Option Node) : Entries → Option Entries
  | [] => (f none).map fun node => [(key, node)]
  | (k, node) :: rest =>
    if k = key then (f (some node)).map fun node => (k, node) :: rest
    else (change key f rest).map fun rest => (k, node) :: rest

/-- the table at the end of a path changed. Tables that are missing on the way are made; a dotted path passes through none
with a header of its own. -/
def changeAt (making : Origin) (f : Origin → Entries → Option Entries) :
    List String → Origin → Entries → Option Entries
  | [], origin, entries => f origin entries
  | key :: path, _, entries =>
    entries.change key fun
      | none => (changeAt making f path making []).map fun sub => .table making sub
      | some (.table origin sub) =>
        if making = .dotted ∧ origin = .header then none
        else (changeAt making f path origin sub).map fun sub => .table origin sub
      | some (.rows rows) =>
        match rows.getLast? with
        | some row => (changeAt making f path .header row).map fun row => .rows (rows.dropLast ++ [row])
        | none => none
      | some (.value _) => none

/-- a value put under a dotted key. The table it goes to is the one the key is written in, or one that a dotted key made. -/
def assign (path : List String) (key : String) (r : Reading) : Entries → Option Entries :=
  changeAt .dotted (fun origin entries =>
    if origin = .dotted ↔ path = [] then none
    else if (entries.lookup key).isSome then none
    else some (entries ++ [(key, .value r)])) path .header

/-- a table opened by its header: it goes to the end of the one it is in -/
def openTable (path : List String) (key : String) : Entries → Option Entries :=
  changeAt .passed (fun _ entries =>
    match entries.lookup key with
    | none => some (entries ++ [(key, .table .header [])])
    | some (.table .passed sub) => some (entries.filter (·.1 ≠ key) ++ [(key, .table .header sub)])
    | some _ => none) path .header

/-- a row added to a list of tables by its header -/
def openRow (path : List String) (key : String) : Entries → Option Entries :=
  changeAt .passed (fun _ entries =>
    entries.change key fun
      | none => some (.rows [[]])
      | some (.rows rows) => some (.rows (rows ++ [[]]))
      | some _ => none) path .header

end Entries

mutual

/-- what stands under a key, as a value -/
def Node.toReading : Node → Reading
  | .value r => r
  | .table _ entries => .object (membersOf entries)
  | .rows rows => .array (itemsOf rows)

/-- entries as the members of an object -/
def membersOf : List (String × Node) → Members
  | [] => .closed
  | (key, node) :: rest => .cons (some key) node.toReading (membersOf rest)

/-- rows as the items of an array -/
def itemsOf : List (List (String × Node)) → Items
  | [] => .closed
  | row :: rest => .cons (.object (membersOf row)) (itemsOf rest)

end

/-- a statement of a document: a value under a key, or the header of a table or of a row. Each has the path to its last
key. -/
inductive Statement where
  | assign (path : List String) (key : String) (value : Reading)
  | openTable (path : List String) (key : String)
  | openRow (path : List String) (key : String)

/-- a document in the making: all of its entries, and the path to the table that was opened last -/
structure Draft where
  entries : Entries
  path : List String

/-- one more statement -/
def Draft.add (d : Draft) : Statement → Option Draft
  | .assign path key r =>
    (d.entries.changeAt .passed (fun _ entries => entries.assign path key r) d.path .header).map fun entries =>
      { d with entries }
  | .openTable path key => (d.entries.openTable path key).map fun entries => ⟨entries, path ++ [key]⟩
  | .openRow path key => (d.entries.openRow path key).map fun entries => ⟨entries, path ++ [key]⟩

/-- the value that statements make, if they agree with each other -/
def ofStatements (statements : List Statement) : Option Reading :=
  (statements.foldlM Draft.add ⟨[], []⟩).map fun d => .object (membersOf d.entries)

end MixinPlanner.Toml
