import ShaderCompat.Gate.Language

/-!
# Target gates

Features that depend on whether SPIR-V is produced or Vulkan is targeted.
-/

namespace ShaderCompat.Gate

/-- Not allowed when the target `generatesSpirv`. -/
def withoutSpirv (o : Options) (loc : Location) (feature : String) : Outcome Unit := do
  if o.target.generatesSpirv then error loc "not allowed when generating SPIR-V" feature ""

/-- Not allowed when the target `targetsVulkan`. -/
def withoutVulkan (o : Options) (loc : Location) (feature : String) : Outcome Unit := do
  if o.target.targetsVulkan then error loc "not allowed when using GLSL for Vulkan" feature ""

/-- Allowed only when the target `targetsVulkan`. -/
def vulkanOnly (o : Options) (loc : Location) (feature : String) : Outcome Unit := do
  if !o.target.targetsVulkan then error loc "only allowed when using GLSL for Vulkan" feature ""

/-- Allowed only when the target `generatesSpirv`. -/
def spirvOnly (o : Options) (loc : Location) (feature : String) : Outcome Unit := do
  if !o.target.generatesSpirv then error loc "only allowed when generating SPIR-V" feature ""

end ShaderCompat.Gate
