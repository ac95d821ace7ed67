/-!
# Language profiles

A shader declares one of four profiles. Checks name several profiles at once through a
`ProfileSet`, a 32-bit word with one bit for each profile; a bit that belongs to no profile is kept
but matches nothing.
-/

namespace ShaderCompat

/-- The language profile a shader declares; `none` is desktop GLSL from before profiles. -/
inductive Profile where
  | none
  | core
  | compatibility
  | es
deriving DecidableEq, Repr, Inhabited

namespace Profile

/-- Every `Profile`, in bit order. -/
def all : List Profile := [.none, .core, .compatibility, .es]

/-- The text that names a profile in documents and in messages. -/
def label : Profile → String
  | .none => "none"
  | .core => "core"
  | .compatibility => "compatibility"
  | .es => "es"

/-- The profile that has `text` for its `label`. -/
def ofLabel? (text : String) : Option Profile := all.find? fun p => p.label == text

/-- The profile word of a `#version` line; a line without one declares `none`. -/
def ofKeyword? (text : String) : Option Profile :=
  if text = "" then some .none else ofLabel? text

/-- The one bit a profile has in a `ProfileSet`. -/
def bit : Profile → UInt32
  | .none => 1
  | .core => 2
  | .compatibility => 4
  | .es => 8

/-- Whether the profile is the embedded one, `es`. -/
def isEs : Profile → Bool
  | .es => true
  | _ => false

end Profile

/-- A set of profiles as a word, with a bit for each `Profile.bit`. A word may have other bits as
well, which are for no profile. -/
structure ProfileSet where
  bits : UInt32
deriving DecidableEq, Repr

namespace ProfileSet

instance : EmptyCollection ProfileSet := ⟨⟨0⟩⟩

instance : Union ProfileSet := ⟨fun a b => ⟨a.bits ||| b.bits⟩⟩

instance : Membership Profile ProfileSet := ⟨fun set p => set.bits &&& p.bit ≠ 0⟩

instance (p : Profile) (set : ProfileSet) : Decidable (p ∈ set) :=
  inferInstanceAs (Decidable (set.bits &&& p.bit ≠ 0))

/-- The set of one profile, by its `bit`. -/
def only (p : Profile) : ProfileSet := ⟨p.bit⟩

/-- Every profile but `es`. -/
def desktop : ProfileSet := only .none ∪ only .core ∪ only .compatibility

end ProfileSet

end ShaderCompat
