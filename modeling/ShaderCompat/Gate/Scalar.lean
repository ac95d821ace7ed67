import ShaderCompat.Gate.Extension

/-!
# Scalar type gates

Integers beyond the signed word, double and half precision floats, and the wide and narrow integers
are gated by several gates in turn. Declarations that are built in are exempt from the newer ones.
-/

namespace ShaderCompat.Gate

/-- The desktop profiles that have a name: `core` and `compatibility`. -/
def namedDesktop : ProfileSet := .only .core ∪ .only .compatibility

/-- Bit operators, unsigned integers and the remainder `%`. -/
def fullInteger (o : Options) (r : Registry) (loc : Location) (op : String) : Outcome Unit := do
  version o r loc (.only .none) 130 [] op
  version o r loc (.only .es) 300 [] op

/-- Double precision floats, as in `double`. -/
def double (o : Options) (r : Registry) (loc : Location) (op : String) : Outcome Unit := do
  profile o loc namedDesktop op
  version o r loc (.only .core) 400 [] op
  version o r loc (.only .compatibility) 400 [Extension.arbGpuShaderFp64.id] op

/-- An integer type of an extension, called `title` in the extension's own refusal. -/
def sizedInteger (o : Options) (r : Registry) (loc : Location) (extension : Extension)
    (title op : String) : Outcome Unit := do
  extensions o r .parse loc [extension.id] title
  profile o loc namedDesktop op
  version o r loc (.only .core) 450 [] op
  version o r loc (.only .compatibility) 450 [] op

/-- Integers of 64 bits. A declaration that is `builtIn` is always allowed. -/
def int64 (o : Options) (r : Registry) (loc : Location) (op : String) (builtIn : Bool) :
    Outcome Unit := do
  if !builtIn then sizedInteger o r loc .arbGpuShaderInt64 "shader int64" op

/-- Integers of 16 bits, with `builtIn` as in `int64`. -/
def int16 (o : Options) (r : Registry) (loc : Location) (op : String) (builtIn : Bool) :
    Outcome Unit := do
  if !builtIn then sizedInteger o r loc .amdGpuShaderInt16 "shader int16" op

/-- Half precision floats, with `builtIn` as in `int64`. -/
def float16 (o : Options) (r : Registry) (loc : Location) (op : String) (builtIn : Bool) :
    Outcome Unit := do
  if !builtIn then
    profile o loc namedDesktop op
    version o r loc namedDesktop 450 [Extension.amdGpuShaderHalfFloat.id] op

end ShaderCompat.Gate
