import ShaderCompat.Extension.Id
import ShaderCompat.Json.Format

/-!
# Extension identities in JSON

An identity is written as its two words. Any two words are read back, whether or not some registry
ever gave them out.
-/

namespace ShaderCompat.ExtensionId

open Document

/-- The fields of an `ExtensionId`, both of which have to be given. -/
def fieldNames : List String := ["index", "owner"]

/-- Reads an `ExtensionId` of any two words. -/
def ofJson? (v : Json) : Option ExtensionId := do
  let fields ← v.fields? fieldNames
  return {
    index := ← fields.required "index" Json.format.uint32
    owner := ← fields.required "owner" Json.format.uint32 }

/-- Writes an `ExtensionId`; `ofJson?` reads it back. -/
def toJson (id : ExtensionId) : Json :=
  .record [("index", .ofInt id.index.toNat), ("owner", .ofInt id.owner.toNat)]

end ShaderCompat.ExtensionId
