import ShaderCompat.Document.Diagnostic
import ShaderCompat.Proofs.Document.Fields
import ShaderCompat.Proofs.Json.Printing

/-!
# Diagnostics are read back

A diagnostic is read back from the text it is written as, whatever its texts hold: the printer
escapes what may not stand for itself in a string, and the reader undoes it. A location without a
file name has no member for it, which tells it from a location whose file name is empty.
-/

namespace ShaderCompat

open Document

namespace Location

/-- The members of a location: the `name`, if it has one, and the three numbers. -/
theorem fields?_toJson (loc : Location) :
    loc.toJson.fields? fieldNames = some
      (loc.name.toList.map (("name", .ofText ·)) ++
        [("string", .ofInt loc.string.toInt), ("line", .ofInt loc.line.toInt),
          ("column", .ofInt loc.column.toInt)]) := by
  refine Json.fields?_record (by decide) ?_
  cases loc.name with
  | none => exact List.sublist_cons_self _ _
  | some name => exact List.Sublist.refl _

/-- A text is read as a file name, the empty one too. -/
theorem nameOfJson?_ofText (s : String) : nameOfJson? (.ofText s) = some (some s) := by
  change (Json.text? (.ofText s)).map some = some (some s)
  rw [Json.text?_ofText]
  rfl

/-- A location is read back from its members. -/
theorem ofJson?_toJson (loc : Location) : ofJson? loc.toJson = some loc := by
  obtain ⟨name, string, line, column⟩ := loc
  rw [ofJson?, fields?_toJson]
  cases name with
  | none => simp [Fields.optional, Fields.required, List.lookup_cons, Json.int32_ofInt]
  | some name =>
      simp [Fields.optional, Fields.required, List.lookup_cons, Json.int32_ofInt,
        nameOfJson?_ofText]

/-- A location has a member for its file name exactly if it has one. -/
theorem under_name_toJson (loc : Location) :
    loc.toJson.under "name" = loc.name.toList.map Json.ofText := by
  obtain ⟨name, string, line, column⟩ := loc
  cases name with
  | none => rfl
  | some name => rfl

/-- A location is written with texts and numbers. -/
theorem composed_toJson (loc : Location) : loc.toJson.Composed fun _ => True := by
  refine .record (fun _ _ => trivial) (List.forall_mem_append.mpr ⟨?_, ?_⟩)
  · exact List.forall_mem_map.mpr fun _ _ => .text trivial
  · simp only [List.forall_mem_cons]
    exact ⟨.int _, .int _, .int _, List.forall_mem_nil _⟩

end Location

/-- A severity is known by its label. -/
theorem Severity.ofLabel?_label (s : Severity) : Severity.ofLabel? s.label = some s := by
  cases s <;> decide

/-- A channel is known by its label. -/
theorem Channel.ofLabel?_label (c : Channel) : Channel.ofLabel? c.label = some c := by
  cases c <;> decide

namespace Diagnostic

/-- A diagnostic is read back from its members. -/
theorem ofJson?_toJson (d : Diagnostic) : ofJson? d.toJson = some d := by
  have hfields : d.toJson.fields? fieldNames = some d.members :=
    Json.fields?_record (by decide) (List.Sublist.refl _)
  rw [ofJson?, hfields, members]
  obtain ⟨severity, channel, loc, reason, token, extra⟩ := d
  simp [Fields.required, List.lookup_cons, Location.ofJson?_toJson, Json.label?_ofText,
    Severity.ofLabel?_label, Channel.ofLabel?_label]

/-- A diagnostic is written with texts and numbers. -/
theorem composed_toJson (d : Diagnostic) : d.toJson.Composed fun _ => True := by
  refine .record (fun _ _ => trivial) ?_
  simp only [members, List.forall_mem_cons]
  exact ⟨.text trivial, .text trivial, d.loc.composed_toJson, .text trivial, .text trivial,
    .text trivial, List.forall_mem_nil _⟩

/-- A diagnostic is read back from its text. Its location has a member for the file name exactly if
there is a file name, even if that is empty. -/
theorem read_back (d : Diagnostic) :
    ∃ v loc : Json, Json.parse (Json.render d.toJson) = some v ∧ ofJson? v = some d ∧
      v.under "loc" = [loc] ∧ loc.under "name" = d.loc.name.toList.map Json.ofText := by
  refine ⟨d.toJson, d.loc.toJson, d.composed_toJson.parse_render, d.ofJson?_toJson, ?_,
    d.loc.under_name_toJson⟩
  rfl

end Diagnostic

end ShaderCompat
