import ShaderCompat.Options
import ShaderCompat.Location
import ShaderCompat.Extension.Catalog

/-!
# The preamble

The macros that are defined before the first line of a shader: they tell the shader its profile, the
extensions it can ask for, and the target environment. `Preamble.definitions` lists them and
`preamble` writes them out, one `#define` line each.
-/

namespace ShaderCompat

/-- Whether a scope covers the profile and version of `o`. -/
def Scope.covers (scope : Scope) (o : Options) : Bool :=
  match scope with
  | .never => false
  | .es => o.profile.isEs
  | .desktop => !o.profile.isEs
  | .always => true
  | .deviceGroup => if o.profile.isEs then 310 ≤ o.version else 140 ≤ o.version
  | .multiview => 300 ≤ o.version

namespace Preamble

/-- The definition `name = value`, if it is to be made. -/
def onlyIf (condition : Bool) (name : String) (value : Int32) : List (String × Int32) :=
  if condition then [(name, value)] else []

/-- The extensions a preamble announces, in catalog order, by their `Scope`. -/
def announced (o : Options) : List Extension := Extension.all.filter fun e => e.entry.scope.covers o

/-- The macros defined for a configuration, in order, each with its value; those of the extensions
`announced` stand in the middle. -/
def definitions (o : Options) : List (String × Int32) :=
  let named := !o.profile.isEs && 150 ≤ o.version
  onlyIf o.profile.isEs "GL_ES" 1 ++
    [("GL_FRAGMENT_PRECISION_HIGH", 1)] ++
    (announced o).map (fun e => (e.name, 1)) ++
    onlyIf named "GL_core_profile" 1 ++
    onlyIf (named && o.profile = .compatibility) "GL_compatibility_profile" 1 ++
    onlyIf (0 < o.target.vulkanGlsl) "VULKAN" o.target.vulkanGlsl ++
    onlyIf (0 < o.target.openGl) "GL_SPIRV" o.target.openGl

/-- The line that makes a definition, from `#define` to its line feed. -/
def line (definition : String × Int32) : String :=
  "#define " ++ definition.1 ++ " " ++ decimal definition.2 ++ "\n"

end Preamble

/-- The text of the preamble: the lines of the `definitions`. -/
def preamble (o : Options) : String := String.join ((Preamble.definitions o).map Preamble.line)

end ShaderCompat
