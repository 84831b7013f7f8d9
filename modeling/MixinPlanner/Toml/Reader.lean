/-
Reading a text as TOML 1.0.

`Toml.read` yields the value of the whole document, an object, or nothing if the text is no TOML: where it is at fault is not
told. Values may be nested to a depth of 79, and no key has more parts than that.
-/
import MixinPlanner.Toml.Quoted
import MixinPlanner.Toml.Scalar
import MixinPlanner.Toml.Table

namespace MixinPlanner.Toml

/-- what neither the depth of a value nor the number of a key's parts may reach -/
def limit : Nat := 80

/-! ## Keys -/

/-- the characters of keys without quotes -/
def isBare (c : Char) : Bool := c.isAlphanum || c == '_' || c == '-'

/-- one part of a key, and what follows -/
def readPart : List Char → Option (String × List Char)
  | '"' :: rest => readLine '"' rest
  | '\'' :: rest => readLine '\'' rest
  | cs =>
    match cs.takeWhile isBare with
    | [] => none
    | name => some (String.ofList name, cs.dropWhile isBare)

/-- the parts of a key with dots between them, and what follows the gap after the key -/
def readParts : Nat → List Char → Option (List String × List Char)
  | 0, _ => none
  | fuel + 1, cs => do
    let (name, rest) ← readPart (skipGap cs)
    match skipGap rest with
    | '.' :: rest => (readParts fuel rest).map fun r => (name :: r.1, r.2)
    | rest => return ([name], rest)

/-- a key: the path to its last part, that part, and what follows the gap after the key -/
def readKey (cs : List Char) : Option (List String × String × List Char) := do
  let (parts, rest) ← readParts (limit - 1) cs
  return (parts.dropLast, ← parts.getLast?, rest)

/-! ## Values -/

mutual

/-- a value within others of a depth, and what follows -/
def readValue : Nat → Nat → List Char → Option (Reading × List Char)
  | 0, _, _ => none
  | fuel + 1, depth, cs =>
    match cs with
    | '"' :: rest => (readQuoted '"' rest).map fun r => (.string (some r.1), r.2)
    | '\'' :: rest => (readQuoted '\'' rest).map fun r => (.string (some r.1), r.2)
    | '[' :: rest =>
      if depth + 1 < limit then
        (readItems fuel (depth + 1) rest).map fun r => (.array (.ofList r.1), r.2)
      else none
    | '\x7b' :: rest =>
      if depth + 1 < limit then do
        let (pairs, rest) ← readPairs fuel (depth + 1) true rest
        return (← ofStatements pairs, rest)
      else none
    | cs => do
      let (word, rest) := readWord cs
      return (← scalar? word, rest)

/-- the items of an array, and what follows its closing bracket. Items may stand on lines of their own, and a comma may
follow the last. -/
def readItems : Nat → Nat → List Char → Option (List Reading × List Char)
  | 0, _, _ => none
  | fuel + 1, depth, cs =>
    match skipLines false cs with
    | ']' :: rest => some ([], rest)
    | cs => do
      let (r, rest) ← readValue fuel depth cs
      match skipLines false rest with
      | ',' :: rest => (readItems fuel depth rest).map fun rs => (r :: rs.1, rs.2)
      | ']' :: rest => return ([r], rest)
      | _ => none

/-- the keys of a table in braces with their values, from its first or from the one after a comma, and what follows the
closing brace -/
def readPairs : Nat → Nat → Bool → List Char → Option (List Statement × List Char)
  | 0, _, _, _ => none
  | fuel + 1, depth, first, cs =>
    match first, skipGap cs with
    | true, '\x7d' :: rest => some ([], rest)
    | _, cs => do
      let (path, key, rest) ← readKey cs
      match rest with
      | '=' :: rest =>
        let (r, rest) ← readValue fuel depth (skipGap rest)
        let pair := .assign path key r
        match skipGap rest with
        | ',' :: rest => (readPairs fuel depth false rest).map fun more => (pair :: more.1, more.2)
        | '\x7d' :: rest => return ([pair], rest)
        | _ => none
      | _ => none

end

/-! ## Documents -/

/-- the statement that a line begins with, and what follows its line -/
def readStatement (cs : List Char) : Option (Statement × List Char) :=
  match cs with
  | '[' :: '[' :: rest => do
    let (path, key, rest) ← readKey rest
    match rest with
    | ']' :: ']' :: rest => return (.openRow path key, ← closeLine rest)
    | _ => none
  | '[' :: rest => do
    let (path, key, rest) ← readKey rest
    match rest with
    | ']' :: rest => return (.openTable path key, ← closeLine rest)
    | _ => none
  | cs => do
    let (path, key, rest) ← readKey cs
    match rest with
    | '=' :: rest =>
      let (r, rest) ← readValue (2 * rest.length + 1) 0 (skipGap rest)
      return (.assign path key r, ← closeLine rest)
    | _ => none

/-- the statements of a document -/
def readStatements : Nat → List Char → Option (List Statement)
  | 0, _ => none
  | fuel + 1, cs =>
    match skipLines false cs with
    | [] => some []
    | cs => do
      let (statement, rest) ← readStatement cs
      return statement :: (← readStatements fuel rest)

/-- the value of a document. A byte order mark at its front does not count. -/
def read (text : String) : Option Reading := do
  let cs :=
    match text.toList with
    | '\ufeff' :: cs => cs
    | cs => cs
  ofStatements (← readStatements (cs.length + 1) cs)

end MixinPlanner.Toml
