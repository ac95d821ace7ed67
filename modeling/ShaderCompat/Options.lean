import ShaderCompat.Profile
import ShaderCompat.Stage
import ShaderCompat.Target

/-!
# Compile options

`Options` is the configuration of one compilation unit: what the shader declares, what it is
compiled for, and which messages are wanted. Every check reads it; `Options.validate` says which
target environments make sense.
-/

namespace ShaderCompat

/-- The release of this library. -/
def release : String := "1.0.0"

/-- The message and rule switches, in bit order. Of these only `relaxedErrors` and
`suppressWarnings` have a bearing on reports. -/
structure Messages where
  /-- Profile and version mismatches are warnings (`Options.mismatch`). -/
  relaxedErrors : Bool := false
  /-- Warnings are dropped (`Checker.delivers`). -/
  suppressWarnings : Bool := false
  ast : Bool := false
  spvRules : Bool := false
  vulkanRules : Bool := false
  onlyPreprocessor : Bool := false
  readHlsl : Bool := false
  cascadingErrors : Bool := false
deriving DecidableEq, Repr, Inhabited

namespace Messages

/-- The switches with the constant that names each, in bit order. -/
def switches (m : Messages) : List (String × Bool) :=
  [("RELAXED_ERRORS", m.relaxedErrors), ("SUPPRESS_WARNINGS", m.suppressWarnings), ("AST", m.ast),
    ("SPV_RULES", m.spvRules), ("VULKAN_RULES", m.vulkanRules),
    ("ONLY_PREPROCESSOR", m.onlyPreprocessor), ("READ_HLSL", m.readHlsl),
    ("CASCADING_ERRORS", m.cascadingErrors)]

/-- The switches as a word, the first of `switches` lowest. -/
def bits (m : Messages) : Nat :=
  m.switches.foldr (fun switch word => 2 * word + switch.2.toNat) 0

end Messages

/-- Why a compilation cannot be set up, or a location not be read. -/
inductive SetupError where
  | noScanner
  | unknownProfile (text : String)
  | unknownStage (text : String)
  | invalidTarget (reason : String)
  | unreadable (detail : String)
deriving DecidableEq, Repr

/-- The text of a setup error, as a host reads it. -/
def SetupError.message : SetupError → String
  | .noScanner => "SCANNER/no active input scanner"
  | .unknownProfile text => "CONFIG/unknown profile '" ++ text ++ "'"
  | .unknownStage text => "CONFIG/unknown stage '" ++ text ++ "'"
  | .invalidTarget reason => "CONFIG/invalid target environment: " ++ reason
  | .unreadable detail => "PARSE/" ++ detail

/-- The profile word of a `#version` line, or why it is none. -/
def Profile.ofKeyword (text : String) : Except SetupError Profile :=
  (Profile.ofKeyword? text).elim (.error (.unknownProfile text)) .ok

/-- The stage that `Stage.ofText?` knows, or why it knows none. -/
def Stage.ofText (text : String) : Except SetupError Stage :=
  (Stage.ofText? text).elim (.error (.unknownStage text)) .ok

/-- The configuration of one compilation unit. -/
structure Options where
  /-- The declared language version. -/
  version : Int32 := 100
  profile : Profile := .none
  stage : Stage := .vertex
  target : Target := {}
  /-- Uses of deprecated features are errors (`Gate.deprecated`). -/
  forwardCompatible : Bool := false
  messages : Messages := {}
deriving DecidableEq, Repr, Inhabited

namespace Options

/-- The options, if their `target` makes sense: Vulkan is reached through SPIR-V, and not together
with the OpenGL semantics of SPIR-V. -/
def validate (o : Options) : Except SetupError Options :=
  if o.target.targetsVulkan && !o.target.generatesSpirv then
    .error (.invalidTarget "a Vulkan target requires a SPIR-V version")
  else if o.target.targetsVulkan && 0 < o.target.openGl then
    .error (.invalidTarget "cannot target Vulkan and OpenGL SPIR-V at once")
  else .ok o

end Options

end ShaderCompat
