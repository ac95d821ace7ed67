/-!
# Extension behaviors

What a shader has said of an extension, and the keywords it says it with.
-/

namespace ShaderCompat

/-- The declared policy for an extension. All but `missing` have a keyword. -/
inductive Behavior where
  /-- The shader has not named the extension. -/
  | missing
  | require
  | enable
  /-- Usable, but every use is reported. -/
  | warn
  /-- Turned off by name. -/
  | disable
deriving DecidableEq, Repr, Inhabited

namespace Behavior

/-- Every behavior, in the order of the constructors. -/
def all : List Behavior := [.missing, .require, .enable, .warn, .disable]

/-- The text of a behavior, as shaders and documents write it. -/
def label : Behavior → String
  | .missing => "missing"
  | .require => "require"
  | .enable => "enable"
  | .warn => "warn"
  | .disable => "disable"

/-- The behavior that has `text` for its `label`. -/
def ofLabel? (text : String) : Option Behavior := all.find? fun b => b.label == text

/-- The behavior of a directive's keyword; a shader cannot write `missing`. -/
def ofKeyword? (text : String) : Option Behavior :=
  (ofLabel? text).filter (· ≠ .missing)

/-- What is said of a keyword that `ofKeyword?` does not know. -/
def unknownKeyword (text : String) : String := "behavior not supported: " ++ text

/-- Whether the extension is on without reserve: `warn` does not count. -/
def isTurnedOn : Behavior → Bool
  | .require | .enable => true
  | _ => false

/-- Whether a feature of the extension may be used: `warn` is enough. -/
def isUsable : Behavior → Bool
  | .require | .enable | .warn => true
  | _ => false

/-- Whether the shader has named the extension at all, be it to `disable` it. -/
def isDeclared : Behavior → Bool
  | .missing => false
  | _ => true

/-- An extension is on under `enable` and `require`. -/
theorem isTurnedOn_iff {b : Behavior} : b.isTurnedOn = true ↔ b = .enable ∨ b = .require := by
  cases b <;> decide

/-- It is usable under `warn` as well. -/
theorem isUsable_iff {b : Behavior} :
    b.isUsable = true ↔ b = .warn ∨ b = .enable ∨ b = .require := by
  cases b <;> decide

/-- `missing` is the one behavior that is not declared. -/
theorem isDeclared_iff {b : Behavior} : b.isDeclared = true ↔ b ≠ .missing := by
  cases b <;> decide

end Behavior

end ShaderCompat
