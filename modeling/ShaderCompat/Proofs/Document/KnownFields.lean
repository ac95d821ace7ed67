import ShaderCompat.Document.Text
import ShaderCompat.Proofs.Document.Fields
import ShaderCompat.Proofs.Json.Printing

/-!
# Options depend on the known fields

An options document may have its members in any order, leave out a field whose value is the one by
default, and have members that no field is named after. `Options.ShownBy` says which JSON values
show given options; whatever else they hold, those options are read from them. A known key that
occurs twice makes a document unreadable, at the top level, in the target and in the switches.

The members without a field are passed over, but their keys have to be text like all the others.
-/

namespace ShaderCompat

open Document

/-! ## Records of options

What is read from a record, given what is read from its fields. -/

section Records

variable {ν : Type} {f : Format ν} {v : ν} {fields : Fields ν}

/-- A target is read by `decode` if its four fields are. -/
theorem Target.decode_eq_some {t : Target} (h : f.record fieldNames v = some fields)
    (hspirv : fields.optional "spv" f.uint32 0 = some t.spirv)
    (hvulkanGlsl : fields.optional "vulkan_glsl" f.int32 0 = some t.vulkanGlsl)
    (hvulkan : fields.optional "vulkan" f.int32 0 = some t.vulkan)
    (hopenGl : fields.optional "open_gl" f.int32 0 = some t.openGl) : decode f v = some t := by
  rw [decode, h]
  simp only [Option.bind_eq_bind, Option.bind_some, hspirv, hvulkanGlsl, hvulkan, hopenGl]
  rfl

/-- What is no `record` is no target. -/
theorem Target.decode_eq_none (h : f.record fieldNames v = none) : decode f v = none := by
  rw [decode, h]
  rfl

/-- The message switches are read by `decode` if each of the eight is. -/
theorem Messages.decode_eq_some {m : Messages} (h : f.record fieldNames v = some fields)
    (hrelaxed : fields.optional "relaxed_errors" f.truth false = some m.relaxedErrors)
    (hsuppress : fields.optional "suppress_warnings" f.truth false = some m.suppressWarnings)
    (hast : fields.optional "ast" f.truth false = some m.ast)
    (hhlsl : fields.optional "read_hlsl" f.truth false = some m.readHlsl)
    (hspv : fields.optional "spv_rules" f.truth false = some m.spvRules)
    (hvulkan : fields.optional "vulkan_rules" f.truth false = some m.vulkanRules)
    (hpreprocessor : fields.optional "only_preprocessor" f.truth false = some m.onlyPreprocessor)
    (hcascading : fields.optional "cascading_errors" f.truth false = some m.cascadingErrors) :
    decode f v = some m := by
  rw [decode, h]
  simp only [Option.bind_eq_bind, Option.bind_some, hrelaxed, hsuppress, hast, hhlsl, hspv,
    hvulkan, hpreprocessor, hcascading]
  rfl

/-- What is no `record` are no message switches. -/
theorem Messages.decode_eq_none (h : f.record fieldNames v = none) : decode f v = none := by
  rw [decode, h]
  rfl

/-- Options are read by `decode` if their six fields are. -/
theorem Options.decode_eq_some {o : Options} (h : f.record fieldNames v = some fields)
    (hversion : fields.optional "version" f.int32 100 = some o.version)
    (hprofile : fields.optional "profile" (fun v => (f.choice v).bind Profile.ofLabel?) .none =
      some o.profile)
    (hstage : fields.optional "stage" (fun v => (f.choice v).bind Stage.ofLabel?) .vertex =
      some o.stage)
    (htarget : fields.optional "target" (Target.decode f) {} = some o.target)
    (hforward : fields.optional "forward_compatible" f.truth false = some o.forwardCompatible)
    (hmessages : fields.optional "messages" (Messages.decode f) {} = some o.messages) :
    decode f v = some o := by
  rw [decode, h]
  simp only [Option.bind_eq_bind, Option.bind_some, hversion, hprofile, hstage, htarget, hforward,
    hmessages]
  rfl

/-- What is no `record` are no options. -/
theorem Options.decode_eq_none (h : f.record fieldNames v = none) : decode f v = none := by
  rw [decode, h]
  rfl

end Records

/-! ## What a document shows -/

/-- `ofLabel?` knows a profile by its `label`. -/
theorem Profile.ofLabel?_label (p : Profile) : Profile.ofLabel? p.label = some p := by
  cases p <;> decide

/-- `ofLabel?` knows a stage by its `label`. -/
theorem Stage.ofLabel?_label (s : Stage) : Stage.ofLabel? s.label = some s := by
  cases s <;> decide

/-- A value shows a target environment: an object that `Gives` the fields, of which those without a
target may be left out. -/
structure Target.ShownBy (t : Target) (v : Json) : Prop where
  object : v.IsObject
  spirv : v.Gives "spv" (· = .ofInt t.spirv.toNat) (t.spirv = 0)
  vulkanGlsl : v.Gives "vulkan_glsl" (· = .ofInt t.vulkanGlsl.toInt) (t.vulkanGlsl = 0)
  vulkan : v.Gives "vulkan" (· = .ofInt t.vulkan.toInt) (t.vulkan = 0)
  openGl : v.Gives "open_gl" (· = .ofInt t.openGl.toInt) (t.openGl = 0)

/-- A value shows a switch under a name, or leaves it out if it is off. -/
def Json.Switches (v : Json) (name : String) (b : Bool) : Prop :=
  v.Gives name (· = .bool b) (b = false)

/-- A value shows the switches: an object that gives them (`Json.Switches`), of which those that are
off may be left out. -/
structure Messages.ShownBy (m : Messages) (v : Json) : Prop where
  object : v.IsObject
  relaxedErrors : v.Switches "relaxed_errors" m.relaxedErrors
  suppressWarnings : v.Switches "suppress_warnings" m.suppressWarnings
  ast : v.Switches "ast" m.ast
  readHlsl : v.Switches "read_hlsl" m.readHlsl
  spvRules : v.Switches "spv_rules" m.spvRules
  vulkanRules : v.Switches "vulkan_rules" m.vulkanRules
  onlyPreprocessor : v.Switches "only_preprocessor" m.onlyPreprocessor
  cascadingErrors : v.Switches "cascading_errors" m.cascadingErrors

namespace Options

/-- A value shows options: an object that `Gives` the fields, of which those with the value by
default may be left out. -/
structure ShownBy (o : Options) (v : Json) : Prop where
  object : v.IsObject
  version : v.Gives "version" (· = .ofInt o.version.toInt) (o.version = 100)
  profile : v.Gives "profile" (· = .ofText o.profile.label) (o.profile = .none)
  stage : v.Gives "stage" (· = .ofText o.stage.label) (o.stage = .vertex)
  target : v.Gives "target" o.target.ShownBy (o.target = {})
  forwardCompatible : v.Switches "forward_compatible" o.forwardCompatible
  messages : v.Gives "messages" o.messages.ShownBy (o.messages = {})

/-- The keys of a document are text, those of the target and of the switches included. -/
structure TextKeyed (v : Json) : Prop where
  top : v.TextKeyed
  target : ∀ w ∈ v.under "target", w.TextKeyed
  messages : ∀ w ∈ v.under "messages", w.TextKeyed

/-- A known key repeats in a document: at the top level, in the `target` or in the `messages`. -/
def Repeats (v : Json) : Prop :=
  v.Repeats fieldNames ∨ (∃ w ∈ v.under "target", w.Repeats Target.fieldNames) ∨
    ∃ w ∈ v.under "messages", w.Repeats Messages.fieldNames

end Options

/-! ## Reading what is shown -/

section Gives

variable {v : Json} {name : String} {fields : Fields Json}

/-- A field that holds a signed word. -/
theorem Json.Gives.optional_int32 {n absent : Int32}
    (h : v.Gives name (· = .ofInt n.toInt) (n = absent))
    (hlookup : fields.lookup name = (v.under name).head?) :
    fields.optional name Json.format.int32 absent = some n := by
  refine h.optional hlookup ?_ id
  rintro _ - rfl
  exact Json.int32_ofInt _

/-- A field that holds an unsigned word. -/
theorem Json.Gives.optional_uint32 {n absent : UInt32}
    (h : v.Gives name (· = .ofInt n.toNat) (n = absent))
    (hlookup : fields.lookup name = (v.under name).head?) :
    fields.optional name Json.format.uint32 absent = some n := by
  refine h.optional hlookup ?_ id
  rintro _ - rfl
  exact Format.uint32_of_unsigned (Json.unsigned_ofInt _)

/-- A field that holds a switch, which is off by default. -/
theorem Json.Switches.optional {b : Bool} (h : v.Switches name b)
    (hlookup : fields.lookup name = (v.under name).head?) :
    fields.optional name Json.format.truth false = some b := by
  refine Json.Gives.optional h hlookup ?_ id
  rintro _ - rfl
  rfl

/-- A field that holds a choice, which is read back from its label. -/
theorem Json.Gives.optional_choice {α : Type} {label : α → String} {ofLabel? : String → Option α}
    (hlabel : ∀ a, ofLabel? (label a) = some a) {a absent : α}
    (h : v.Gives name (· = .ofText (label a)) (a = absent))
    (hlookup : fields.lookup name = (v.under name).head?) :
    fields.optional name (fun v => (Json.format.choice v).bind ofLabel?) absent = some a := by
  refine h.optional hlookup ?_ id
  rintro _ - rfl
  change (Json.label? (.ofText (label a))).bind ofLabel? = some a
  rw [Json.label?_ofText]
  exact hlabel a

end Gives

/-- A target is read from every object that shows it, if the keys are text. -/
theorem Target.ShownBy.decode {t : Target} {v : Json} (h : t.ShownBy v) (htext : v.TextKeyed) :
    Target.decode Json.format v = some t := by
  have honce : ∀ name ∈ fieldNames, (v.under name).length ≤ 1 := by
    simp only [fieldNames, List.forall_mem_cons]
    exact ⟨h.spirv.length_le, h.vulkanGlsl.length_le, h.vulkan.length_le, h.openGl.length_le,
      List.forall_mem_nil _⟩
  obtain ⟨fields, hfields, hlookup⟩ := Json.exists_fields h.object htext honce
  simp only [fieldNames, List.forall_mem_cons] at hlookup
  obtain ⟨hspirv, hvulkanGlsl, hvulkan, hopenGl, -⟩ := hlookup
  exact decode_eq_some hfields (h.spirv.optional_uint32 hspirv)
    (h.vulkanGlsl.optional_int32 hvulkanGlsl) (h.vulkan.optional_int32 hvulkan)
    (h.openGl.optional_int32 hopenGl)

/-- The switches are read from every object that shows them, if the keys are text. -/
theorem Messages.ShownBy.decode {m : Messages} {v : Json} (h : m.ShownBy v)
    (htext : v.TextKeyed) : Messages.decode Json.format v = some m := by
  -- no field is given twice, so the object is a record
  have honce : ∀ name ∈ fieldNames, (v.under name).length ≤ 1 := by
    simp only [fieldNames, List.forall_mem_cons]
    exact ⟨h.relaxedErrors.length_le, h.suppressWarnings.length_le, h.ast.length_le,
      h.readHlsl.length_le, h.spvRules.length_le, h.vulkanRules.length_le,
      h.onlyPreprocessor.length_le, h.cascadingErrors.length_le, List.forall_mem_nil _⟩
  obtain ⟨fields, hfields, hlookup⟩ := Json.exists_fields h.object htext honce
  simp only [fieldNames, List.forall_mem_cons] at hlookup
  obtain ⟨hrelaxed, hsuppress, hast, hhlsl, hspv, hvulkan, hpreprocessor, hcascading, -⟩ := hlookup
  exact decode_eq_some hfields (h.relaxedErrors.optional hrelaxed)
    (h.suppressWarnings.optional hsuppress) (h.ast.optional hast) (h.readHlsl.optional hhlsl)
    (h.spvRules.optional hspv) (h.vulkanRules.optional hvulkan)
    (h.onlyPreprocessor.optional hpreprocessor) (h.cascadingErrors.optional hcascading)

namespace Options

/-- Options are read from every value that shows them (`ShownBy`), if the keys are text. -/
theorem ShownBy.decode {o : Options} {v : Json} (h : o.ShownBy v) (htext : TextKeyed v) :
    decode Json.format v = some o := by
  have honce : ∀ name ∈ fieldNames, (v.under name).length ≤ 1 := by
    simp only [fieldNames, List.forall_mem_cons]
    exact ⟨h.version.length_le, h.profile.length_le, h.stage.length_le, h.target.length_le,
      h.forwardCompatible.length_le, h.messages.length_le, List.forall_mem_nil _⟩
  obtain ⟨fields, hfields, hlookup⟩ := Json.exists_fields h.object htext.top honce
  simp only [fieldNames, List.forall_mem_cons] at hlookup
  obtain ⟨hversion, hprofile, hstage, htarget, hforward, hmessages, -⟩ := hlookup
  refine decode_eq_some hfields (h.version.optional_int32 hversion)
    (h.profile.optional_choice Profile.ofLabel?_label hprofile)
    (h.stage.optional_choice Stage.ofLabel?_label hstage) ?_ (h.forwardCompatible.optional hforward)
    ?_
  · -- the two records inside are read by the lemmas above
    exact h.target.optional htarget (fun w hw hshown => hshown.decode (htext.target w hw)) id
  · exact h.messages.optional hmessages (fun w hw hshown => hshown.decode (htext.messages w hw)) id

/-! ## Repeated keys -/

/-- A known key that repeats makes the options unreadable, wherever it `Repeats`. -/
theorem decode_of_repeats {v : Json} (h : Repeats v) : decode Json.format v = none := by
  cases hfields : v.fields? fieldNames with
  | none => exact decode_eq_none hfields
  | some fields =>
      have hrecord : Json.format.record fieldNames v = some fields := hfields
      rw [decode, hrecord]
      -- at the top level there is no record, and further in there is none for the field
      rcases h with hrepeats | ⟨w, hw, hrepeats⟩ | ⟨w, hw, hrepeats⟩
      · rw [Json.fields?_of_repeats hrepeats] at hfields
        contradiction
      · have htarget : fields.optional "target" (Target.decode Json.format) {} = none := by
          rw [Fields.optional, Json.lookup_of_mem_under hfields (by decide) hw]
          exact Target.decode_eq_none (Json.fields?_of_repeats hrepeats)
        simp only [Option.bind_eq_bind, Option.bind_some, htarget, Option.bind_none,
          Option.bind_fun_none]
      · have hmessages : fields.optional "messages" (Messages.decode Json.format) {} = none := by
          rw [Fields.optional, Json.lookup_of_mem_under hfields (by decide) hw]
          exact Messages.decode_eq_none (Json.fields?_of_repeats hrepeats)
        simp only [Option.bind_eq_bind, Option.bind_some, hmessages, Option.bind_none,
          Option.bind_fun_none]

/-- Options are read from every text that shows them (`ShownBy`), whatever other members it has
under keys that are text (`TextKeyed`); a text in which a known key `Repeats` is unreadable. -/
theorem known_fields {v : Json} {text : String} (hwritten : v.WrittenAs text) :
    (∀ o : Options, o.ShownBy v → TextKeyed v → ofJson text = .ok o) ∧
      (Repeats v → ∃ detail, ofJson text = .error (.unreadable detail)) := by
  rw [ofJson, Json.parse_of_writtenAs hwritten, Option.bind_some]
  constructor
  · intro o hshown htext
    rw [hshown.decode htext]
    rfl
  · intro hrepeats
    rw [decode_of_repeats hrepeats]
    exact ⟨_, rfl⟩

/-- A document with other members, most of its fields left out and the others in another order; and
one with a field of its target given twice. -/
theorem known_fields_shuffled :
    (∃ (v : Json) (text : String) (o : Options),
      text = "\x7b\"x\":\"\",\"target\":\x7b\"y\":\x7b\x7d,\"spv\":7\x7d,\"version\":450\x7d" ∧
      o = { version := 450, target := { spirv := 7 } } ∧
      v.WrittenAs text ∧ o.ShownBy v ∧ TextKeyed v ∧ ofJson text = .ok o) ∧
    ∃ (v : Json) (text : String), text = "\x7b\"target\":\x7b\"spv\":1,\"spv\":1\x7d\x7d" ∧
      v.WrittenAs text ∧ Repeats v ∧ ∃ detail, ofJson text = .error (.unreadable detail) := by
  have hany {ms : List (String × Json)} (h : ∀ m ∈ ms, m.2.Composed fun _ => True) :
      (Json.record ms).Composed fun _ => True := .record (fun _ _ => trivial) h
  constructor
  · let target : Json := .record [("y", .record []), ("spv", .ofInt 7)]
    let v : Json := .record [("x", .ofText ""), ("target", target), ("version", .ofInt 450)]
    have hcomposed : v.Composed fun _ => True := by
      refine hany (List.forall_mem_cons.mpr ⟨.text trivial, List.forall_mem_cons.mpr ⟨?_,
        List.forall_mem_singleton.mpr (.int 450)⟩⟩)
      exact hany (List.forall_mem_cons.mpr
        ⟨hany (List.forall_mem_nil _), List.forall_mem_singleton.mpr (.int 7)⟩)
    have hwritten := hcomposed.writtenAs
    let o : Options := { version := 450, target := { spirv := 7 } }
    have htarget : o.target.ShownBy target :=
      ⟨⟨_, rfl⟩, .inl ⟨_, rfl, rfl⟩, .inr ⟨rfl, rfl⟩, .inr ⟨rfl, rfl⟩, .inr ⟨rfl, rfl⟩⟩
    have hshown : o.ShownBy v :=
      ⟨⟨_, rfl⟩, .inl ⟨_, rfl, rfl⟩, .inr ⟨rfl, rfl⟩, .inr ⟨rfl, rfl⟩, .inl ⟨_, rfl, htarget⟩,
        .inr ⟨rfl, rfl⟩, .inr ⟨rfl, rfl⟩⟩
    have htext : TextKeyed v :=
      ⟨Json.textKeyed_record _, List.forall_mem_singleton.mpr (Json.textKeyed_record _),
        List.forall_mem_nil _⟩
    exact ⟨v, _, o, rfl, rfl, hwritten, hshown, htext, (known_fields hwritten).1 o hshown htext⟩
  · let target : Json := .record [("spv", .ofInt 1), ("spv", .ofInt 1)]
    have hcomposed : (Json.record [("target", target)]).Composed fun _ => True :=
      hany (List.forall_mem_singleton.mpr
        (hany (List.forall_mem_cons.mpr ⟨.int 1, List.forall_mem_singleton.mpr (.int 1)⟩)))
    have hwritten := hcomposed.writtenAs
    have hrepeats : Repeats (.record [("target", target)]) :=
      .inr (.inl ⟨target, List.mem_singleton_self _, "spv", by decide, Nat.le_refl 2⟩)
    exact ⟨_, _, rfl, hwritten, hrepeats, (known_fields hwritten).2 hrepeats⟩

/-- Half of a surrogate pair is no text: with it as the key of a member, no options are read, though
the document is one of JSON and shows the options with the values by default. -/
theorem halved_key_unread :
    Json.WrittenAs (.object [([.half 0xd800], .null)]) "\x7b\"\\ud800\":null\x7d" ∧
      ({} : Options).ShownBy (.object [([.half 0xd800], .null)]) ∧
      ofJson "\x7b\"\\ud800\":null\x7d" ≠ .ok {} := by
  have hunit : Json.UnitDigits ['d', '8', '0', '0'] 0xd800 := ⟨rfl, by decide⟩
  have hspelled : Json.Spelled ['\\', 'u', 'd', '8', '0', '0'] [.half 0xd800] :=
    .half hunit (by decide) (by simp) .nil
  have hkey : Json.KeyWritten [.half 0xd800] ("\"\\ud800\":").toList :=
    .mk (List.forall_mem_nil _) hspelled (List.forall_mem_nil _)
  have hwritten : Json.WrittenAs (.object [([.half 0xd800], .null)]) "\x7b\"\\ud800\":null\x7d" :=
    ⟨_, [], rfl, .object hkey .null .noMember, List.forall_mem_nil _⟩
  have hshown : ({} : Options).ShownBy (.object [([.half 0xd800], .null)]) :=
    ⟨⟨_, rfl⟩, .inr ⟨rfl, rfl⟩, .inr ⟨rfl, rfl⟩, .inr ⟨rfl, rfl⟩, .inr ⟨rfl, rfl⟩, .inr ⟨rfl, rfl⟩,
      .inr ⟨rfl, rfl⟩⟩
  refine ⟨hwritten, hshown, ?_⟩
  rw [ofJson, Json.parse_of_writtenAs hwritten]
  nofun

end Options

end ShaderCompat
