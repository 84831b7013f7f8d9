/-
Content hashes: the identity by which contexts, catalogs and plans are compared and stored.

A hash is taken of bytes. Values with several parts are first laid out as fields, one line each: the name, a colon, the
value and a line feed. A list takes two fields, its length and then its elements joined by commas, each preceded by its
own length in bytes and a number sign, so that no element can be mistaken for the start of the next.

The layout (`Fields`) is kept apart from the digest, so that what is hashed can be reasoned about without the hash.
-/
import MixinPlanner.Digest.Sha256

namespace MixinPlanner

/-- a hash in hexadecimal digits; a stored one may hold any text -/
structure ContentHash where
  text : String
  deriving DecidableEq, Repr, Inhabited

instance : ToString ContentHash := ⟨ContentHash.text⟩

/-- the bytes of a text -/
def utf8 (s : String) : List UInt8 := s.toUTF8.data.toList

namespace ContentHash

/-- the hash of some bytes -/
def ofBytes (bytes : List UInt8) : ContentHash := ⟨Sha256.hex bytes⟩

/-- the hash of a text's bytes -/
def ofText (s : String) : ContentHash := ofBytes (utf8 s)

/-- the characters of a text up to a number of bytes, if a character ends exactly there -/
def takeBytes : List Char → Nat → Option (List Char)
  | _, 0 => some []
  | [], _ + 1 => none
  | c :: rest, n + 1 => if c.utf8Size ≤ n + 1 then (takeBytes rest (n + 1 - c.utf8Size)).map (c :: ·) else none

/-- the first twelve bytes, for messages; the whole text where no character ends there -/
def short (h : ContentHash) : String :=
  match takeBytes h.text.toList 12 with
  | some front => String.ofList front
  | none => h.text

end ContentHash

/-- named parts laid out for hashing -/
abbrev Fields := List UInt8

namespace Fields

/-- no parts -/
def empty : Fields := []

/-- one field: name, colon, value, line feed -/
def line (name value : String) : Fields := utf8 name ++ utf8 ":" ++ utf8 value ++ utf8 "\n"

/-- the elements of a list, each after its length in bytes, between commas -/
def joinSized (values : List String) : String :=
  ",".intercalate (values.map fun v => toString v.utf8ByteSize ++ "#" ++ v)

/-- the two fields of a list: its length, and its elements -/
def lines (name : String) (values : List String) : Fields :=
  line (name ++ ".len") (toString values.length) ++ line name (joinSized values)

/-- a text field more -/
def text (fs : Fields) (name value : String) : Fields := fs ++ line name value

/-- an integer field more -/
def int (fs : Fields) (name : String) (value : Int) : Fields := fs.text name (toString value)

/-- a list more -/
def list (fs : Fields) (name : String) (values : List String) : Fields := fs ++ lines name values

/-- the hash of the parts -/
def hash (fs : Fields) : ContentHash := .ofBytes fs

end Fields

end MixinPlanner
