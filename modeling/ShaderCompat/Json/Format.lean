import ShaderCompat.Document
import ShaderCompat.Json

/-!
# Records in JSON

A record is an object that names its fields, each at most once, or an array of the fields in their
order, of which the last may be missing. An object may have further members, whatever they hold, as
long as every key is text. A choice is written as its label, or as an object whose one member has
the label for its key and holds null.
-/

namespace ShaderCompat.Json

open Document

/-- The fields that an `object` gives out of those listed, by `named?`. -/
def fields? (names : List String) : Json → Option (Fields Json)
  | .object members => Fields.ofEntries? textOf names members
  | .array items => if items.length ≤ names.length then some (names.zip items) else none
  | _ => none

/-- The label of a choice: a text, or the key of an object with one member, which is `null`. -/
def label? : Json → Option String
  | .string pieces | .object [(pieces, .null)] => textOf pieces
  | _ => none

/-- How JSON shows the values of a document. -/
def format : Format Json where
  record := fields?
  signed := int?
  unsigned v := v.int?.bind Int.toNat?
  truth := bool?
  choice := label?

end ShaderCompat.Json
