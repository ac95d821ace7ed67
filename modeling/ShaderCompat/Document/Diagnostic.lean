import ShaderCompat.Diagnostic
import ShaderCompat.Json.Format

/-!
# Diagnostics in JSON

Diagnostics are written for other programs to read, and are read back from what is written. A
location without a file name has no field for it; `null` is read as no name as well.
-/

namespace ShaderCompat

open Document

namespace Location

/-- The fields of a `Location`. -/
def fieldNames : List String := ["name", "string", "line", "column"]

/-- Reads a file name, which may be `null`. -/
def nameOfJson? : Json → Option (Option String)
  | .null => some none
  | v => v.text?.map some

/-- Reads a `Location`. Only `name` may be left out. -/
def ofJson? (v : Json) : Option Location := do
  let fields ← v.fields? fieldNames
  return {
    name := ← fields.optional "name" nameOfJson? none
    string := ← fields.required "string" Json.format.int32
    line := ← fields.required "line" Json.format.int32
    column := ← fields.required "column" Json.format.int32 }

/-- Writes a `Location`, with a `name` only if it has one. -/
def toJson (loc : Location) : Json :=
  .record
    (loc.name.toList.map (("name", .ofText ·)) ++
      [("string", .ofInt loc.string.toInt), ("line", .ofInt loc.line.toInt),
        ("column", .ofInt loc.column.toInt)])

end Location

namespace Diagnostic

/-- The fields of a `Diagnostic`, all of which have to be given. -/
def fieldNames : List String := ["severity", "channel", "loc", "reason", "token", "extra"]

/-- Reads a `Diagnostic`. -/
def ofJson? (v : Json) : Option Diagnostic := do
  let fields ← v.fields? fieldNames
  return {
    severity := ← fields.required "severity" fun v => v.label?.bind Severity.ofLabel?
    channel := ← fields.required "channel" fun v => v.label?.bind Channel.ofLabel?
    loc := ← fields.required "loc" Location.ofJson?
    reason := ← fields.required "reason" Json.text?
    token := ← fields.required "token" Json.text?
    extra := ← fields.required "extra" Json.text? }

/-- The members of a diagnostic, in the order of `fieldNames`. -/
def members (d : Diagnostic) : List (String × Json) :=
  [("severity", .ofText d.severity.label), ("channel", .ofText d.channel.label),
    ("loc", d.loc.toJson), ("reason", .ofText d.reason), ("token", .ofText d.token),
    ("extra", .ofText d.extra)]

/-- Writes a `Diagnostic`; `ofJson?` reads it back. -/
def toJson (d : Diagnostic) : Json := .record d.members

end Diagnostic

end ShaderCompat
