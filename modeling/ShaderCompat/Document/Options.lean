import ShaderCompat.Document
import ShaderCompat.Json
import ShaderCompat.Options

/-!
# Options documents

The fields of an options document. Every field may be left out, and then has the value that
`Options` gives it by default. `Options.toJson` writes all of them.
-/

namespace ShaderCompat

open Document

variable {ν : Type}

/-- The fields of a `Target`, in the order that an array gives them in. -/
def Target.fieldNames : List String := ["spv", "vulkan_glsl", "vulkan", "open_gl"]

/-- Reads a `Target`. A field that is left out is zero. -/
def Target.decode (f : Format ν) (v : ν) : Option Target := do
  let fields ← f.record fieldNames v
  return {
    spirv := ← fields.optional "spv" f.uint32 0
    vulkanGlsl := ← fields.optional "vulkan_glsl" f.int32 0
    vulkan := ← fields.optional "vulkan" f.int32 0
    openGl := ← fields.optional "open_gl" f.int32 0 }

/-- Writes a `Target`, with all fields. -/
def Target.toJson (t : Target) : Json :=
  .record
    [("spv", .ofInt t.spirv.toNat), ("vulkan_glsl", .ofInt t.vulkanGlsl.toInt),
      ("vulkan", .ofInt t.vulkan.toInt), ("open_gl", .ofInt t.openGl.toInt)]

/-- The fields of the switches; a document lists them in an order of its own, which is not that of
`Messages.switches`. -/
def Messages.fieldNames : List String :=
  ["relaxed_errors", "suppress_warnings", "ast", "read_hlsl", "spv_rules", "vulkan_rules",
    "only_preprocessor", "cascading_errors"]

/-- Reads the switches. One that is left out is `false`. -/
def Messages.decode (f : Format ν) (v : ν) : Option Messages := do
  let fields ← f.record fieldNames v
  let switch (name : String) := fields.optional name f.truth false
  return {
    relaxedErrors := ← switch "relaxed_errors"
    suppressWarnings := ← switch "suppress_warnings"
    ast := ← switch "ast"
    readHlsl := ← switch "read_hlsl"
    spvRules := ← switch "spv_rules"
    vulkanRules := ← switch "vulkan_rules"
    onlyPreprocessor := ← switch "only_preprocessor"
    cascadingErrors := ← switch "cascading_errors" }

/-- Writes the switches, with all fields. -/
def Messages.toJson (m : Messages) : Json :=
  .record
    [("relaxed_errors", .bool m.relaxedErrors), ("suppress_warnings", .bool m.suppressWarnings),
      ("ast", .bool m.ast), ("read_hlsl", .bool m.readHlsl), ("spv_rules", .bool m.spvRules),
      ("vulkan_rules", .bool m.vulkanRules), ("only_preprocessor", .bool m.onlyPreprocessor),
      ("cascading_errors", .bool m.cascadingErrors)]

namespace Options

/-- The fields of an `Options` document, in the order that an array gives them in. -/
def fieldNames : List String :=
  ["version", "profile", "stage", "target", "forward_compatible", "messages"]

/-- Reads options. A field that is left out has the default of `Options`. -/
def decode (f : Format ν) (v : ν) : Option Options := do
  let fields ← f.record fieldNames v
  return {
    version := ← fields.optional "version" f.int32 100
    profile := ← fields.optional "profile" (fun v => (f.choice v).bind Profile.ofLabel?) .none
    stage := ← fields.optional "stage" (fun v => (f.choice v).bind Stage.ofLabel?) .vertex
    target := ← fields.optional "target" (Target.decode f) {}
    forwardCompatible := ← fields.optional "forward_compatible" f.truth false
    messages := ← fields.optional "messages" (Messages.decode f) {} }

/-- Writes options, with all fields; `decode` reads them back. -/
def toJson (o : Options) : Json :=
  .record
    [("version", .ofInt o.version.toInt), ("profile", .ofText o.profile.label),
      ("stage", .ofText o.stage.label), ("target", o.target.toJson),
      ("forward_compatible", .bool o.forwardCompatible), ("messages", o.messages.toJson)]

end Options

end ShaderCompat
