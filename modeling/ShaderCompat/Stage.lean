/-!
# Pipeline stages

A shader is compiled for one of six stages. As with profiles, checks name several stages through a
word of bits, and bits beyond the six match nothing.
-/

namespace ShaderCompat

/-- The pipeline stage a shader is compiled for. -/
inductive Stage where
  | vertex
  | tessControl
  | tessEvaluation
  | geometry
  | fragment
  | compute
deriving DecidableEq, Repr, Inhabited

namespace Stage

/-- Every `Stage`, in pipeline order. -/
def all : List Stage := [.vertex, .tessControl, .tessEvaluation, .geometry, .fragment, .compute]

/-- The text that names a stage in documents. -/
def label : Stage → String
  | .vertex => "vertex"
  | .tessControl => "tess-control"
  | .tessEvaluation => "tess-evaluation"
  | .geometry => "geometry"
  | .fragment => "fragment"
  | .compute => "compute"

/-- The text that names a stage in messages: its `label`, or the words that it is short for. -/
def title : Stage → String
  | .tessControl => "tessellation control"
  | .tessEvaluation => "tessellation evaluation"
  | stage => stage.label

/-- The conventional file suffix of a stage, as in `shader.frag`. -/
def suffix : Stage → String
  | .vertex => "vert"
  | .tessControl => "tesc"
  | .tessEvaluation => "tese"
  | .geometry => "geom"
  | .fragment => "frag"
  | .compute => "comp"

/-- The stage that has `text` for its `label`. -/
def ofLabel? (text : String) : Option Stage := all.find? fun s => s.label == text

/-- The stage that has `text` for its `label` or for its `suffix`. -/
def ofText? (text : String) : Option Stage :=
  all.find? fun s => s.label == text || s.suffix == text

/-- The one bit a stage has in a `StageSet`. -/
def bit : Stage → UInt32
  | .vertex => 1
  | .tessControl => 2
  | .tessEvaluation => 4
  | .geometry => 8
  | .fragment => 16
  | .compute => 32

end Stage

/-- A set of stages as a word, with a bit for each `Stage.bit`, as `ProfileSet` is one of profiles.
-/
structure StageSet where
  bits : UInt32
deriving DecidableEq, Repr

namespace StageSet

instance : EmptyCollection StageSet := ⟨⟨0⟩⟩

instance : Union StageSet := ⟨fun a b => ⟨a.bits ||| b.bits⟩⟩

instance : Membership Stage StageSet := ⟨fun set s => set.bits &&& s.bit ≠ 0⟩

instance (s : Stage) (set : StageSet) : Decidable (s ∈ set) :=
  inferInstanceAs (Decidable (set.bits &&& s.bit ≠ 0))

/-- The set of one stage, by its `bit`. -/
def only (s : Stage) : StageSet := ⟨s.bit⟩

/-- The stages of a set, in the order of `Stage.all`. -/
def listed (stages : StageSet) : List Stage := Stage.all.filter fun s => s ∈ stages

end StageSet

end ShaderCompat
