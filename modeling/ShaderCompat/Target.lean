/-!
# Target environments

Which SPIR-V version and which client interface a compilation produces code for.
-/

namespace ShaderCompat

/-- A target environment; a field that is zero is not targeted. Only `Options.validate` looks at the
fields together. -/
structure Target where
  /-- The SPIR-V version word, as in `0x10000`. -/
  spirv : UInt32 := 0
  /-- The version of the Vulkan dialect of the language, which a preamble defines as `VULKAN`. -/
  vulkanGlsl : Int32 := 0
  /-- The version of the Vulkan interface, which `targetsVulkan` reads. -/
  vulkan : Int32 := 0
  /-- The version of the OpenGL semantics of SPIR-V, which a preamble defines as `GL_SPIRV`. -/
  openGl : Int32 := 0
deriving DecidableEq, Repr, Inhabited

namespace Target

/-- Vulkan through SPIR-V, which speaks version 100 of the Vulkan dialect; `openGl` is left at zero.
-/
def forVulkan (spirv : UInt32) (vulkan : Int32) : Target :=
  { spirv, vulkanGlsl := 100, vulkan }

/-- OpenGL through SPIR-V; `vulkan` and `vulkanGlsl` are left at zero. -/
def forOpenGl (spirv : UInt32) (openGl : Int32) : Target := { spirv, openGl }

/-- Whether any SPIR-V is produced: `spirv` is not zero. -/
def generatesSpirv (target : Target) : Bool := target.spirv != 0

/-- Whether the Vulkan interface is targeted: `vulkan` is positive, which a negative version is not.
-/
def targetsVulkan (target : Target) : Bool := 0 < target.vulkan

end Target

end ShaderCompat
