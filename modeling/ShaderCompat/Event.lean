import ShaderCompat.Diagnostic
import ShaderCompat.Extension.Registry
import ShaderCompat.Profile
import ShaderCompat.Stage

/-!
# The event log

Registries and checks note what they decide in a log of structured events, and a host may have its
diagnostics delivered to the same log. An event has a level, a message, and named fields.
-/

namespace ShaderCompat

/-- How grave an event is. `error` and `warn` are for reports only. -/
inductive Level where
  | trace
  | debug
  | warn
  | error
deriving DecidableEq, Repr

/-- The text of a level, as the log shows it. -/
def Level.label : Level → String
  | .trace => "trace"
  | .debug => "debug"
  | .warn => "warn"
  | .error => "error"

/-- The value of an event field, a text or a number. -/
inductive FieldValue where
  | number (n : Int)
  | text (s : String)
deriving DecidableEq, Repr

/-- One entry of the log. `fields` says how it is written. -/
inductive Event where
  /-- A name read from source was listed at a new place, whose identity has the number `index`. -/
  | interned (name : String) (index : UInt32)
  /-- A behavior was given to all declared extensions, of which there were `touched`. -/
  | appliedToDeclared (behavior : Behavior) (touched : Nat)
  | profileRefused (feature : String) (profile : Profile)
  | versionRefused (feature : String) (version minimum : Int32)
  | stageRefused (feature : String) (stage : Stage)
  | extensionsRefused (feature : String) (channel : Channel)
  /-- A diagnostic was delivered to the log, by a `tracing` sink. -/
  | reported (d : Diagnostic)
deriving DecidableEq, Repr

namespace Event

/-- The level of an event: bookkeeping is for debugging, refusals are traced, and a diagnostic has
the level of its severity. -/
def level : Event → Level
  | .interned .. | .appliedToDeclared .. => .debug
  | .profileRefused .. | .versionRefused .. | .stageRefused .. | .extensionsRefused .. => .trace
  | .reported d => if d.isError then .error else .warn

/-- The message of an event; that of a diagnostic is what `Diagnostic.render` gives. -/
def message : Event → String
  | .interned .. => "interning extension name from source"
  | .appliedToDeclared .. => "applied behavior to all tracked extensions"
  | .profileRefused .. => "profile gate failed"
  | .versionRefused .. => "version gate failed"
  | .stageRefused .. => "stage gate failed"
  | .extensionsRefused .. => "extension gate failed"
  | .reported d => d.render

/-- The named fields of an event besides its `message`, in order. -/
def details : Event → List (String × FieldValue)
  | .interned name index => [("extension", .text name), ("id", .number index.toNat)]
  | .appliedToDeclared b touched => [("behavior", .text b.label), ("touched", .number touched)]
  | .profileRefused feature p => [("feature", .text feature), ("profile", .text p.label)]
  | .versionRefused feature version minimum =>
    [("feature", .text feature), ("version", .number version.toInt),
      ("min_version", .number minimum.toInt)]
  | .stageRefused feature s => [("feature", .text feature), ("stage", .text s.title)]
  | .extensionsRefused feature c => [("feature", .text feature), ("channel", .text c.label)]
  | .reported d =>
    [("channel", .text d.channel.label), ("file", .text (d.loc.name.getD "")),
      ("string", .number d.loc.string.toInt), ("line", .number d.loc.line.toInt),
      ("column", .number d.loc.column.toInt), ("reason", .text d.reason), ("token", .text d.token)]

/-- Every field of an event, the `message` first. -/
def fields (e : Event) : List (String × FieldValue) :=
  ("message", .text e.message) :: e.details

end Event

/-- The entry that `Registry.intern` leaves in the log: none if the name is listed already. The
number in it is the `index` of the new identity. -/
def Registry.internEvents (r : Registry) (text : String) : List Event :=
  if (r.find? text).isSome then [] else [.interned text (r.idAt r.size).index]

/-- The entry that `Registry.setDeclared` leaves in the log, with what `Registry.overwrite` has
counted. -/
def Registry.setDeclaredEvent (r : Registry) (b : Behavior) : Event :=
  .appliedToDeclared b (Registry.overwrite b r.behaviors).2

end ShaderCompat
