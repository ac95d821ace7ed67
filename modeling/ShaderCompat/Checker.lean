import ShaderCompat.Check
import ShaderCompat.Directive
import ShaderCompat.Preamble

/-!
# The checker

A checker serves one compilation unit. It holds the configuration, the extension registry, the
number of errors so far, the cursor it reads locations from, and the sink that its reports go to.

All reports go through `Checker.receive`: a warning is dropped when warnings are suppressed, and
otherwise a report is delivered to the sink, and counted if it is an error. A sink either keeps what
it is given, or writes it into the event log. Nothing else counts errors but `Checker.addError`.
-/

namespace ShaderCompat

/-- Where the reports of a checker go: they are kept (`recording`) or written into the log
(`tracing`). -/
inductive Sink where
  /-- They are kept, oldest first. -/
  | recording (kept : List Diagnostic)
  /-- They are written into the event log. -/
  | tracing
deriving DecidableEq, Repr

namespace Sink

/-- The sink after one more report, which a `recording` one puts behind the others. -/
def accept (d : Diagnostic) : Sink → Sink
  | .recording kept => .recording (kept ++ [d])
  | .tracing => .tracing

/-- The log entries of a report that is delivered: one by a `tracing` sink, none by another. -/
def events (d : Diagnostic) : Sink → List Event
  | .recording _ => []
  | .tracing => [.reported d]

/-- Throws away what was kept. The kind of the sink stays. -/
def clear : Sink → Sink
  | .recording _ => .recording []
  | .tracing => .tracing

/-- What was kept, if the sink is a `recording` one. -/
def kept? : Sink → Option (List Diagnostic)
  | .recording kept => some kept
  | .tracing => none

end Sink

/-- The state of one compilation unit: its configuration, what is known of extensions, and what was
reported. -/
structure Checker where
  options : Options
  registry : Registry
  sink : Sink
  /-- How many errors were reported, or added by `addError`. -/
  errors : Nat := 0
  /-- The cursor that locations are read from, by its place in `Session.cursors`. -/
  cursor : Option Nat := none
deriving DecidableEq, Repr

/-- What a step lets out: the reports `delivered`, and the entries of the event log. -/
structure Emission where
  delivered : List Diagnostic := []
  events : List Event := []
deriving DecidableEq, Repr

namespace Emission

/-- One emission after another, in both lists. -/
def append (a b : Emission) : Emission := ⟨a.delivered ++ b.delivered, a.events ++ b.events⟩

instance : Append Emission := ⟨append⟩

end Emission

namespace Checker

/-- The checker of a configuration, for which nothing has been declared or reported; its registry is
`Registry.fresh`. -/
def start (o : Options) (tag : UInt32) (sink : Sink) : Checker :=
  { options := o, registry := .fresh tag, sink }

/-- Whether a report reaches the sink: a warning does not while `suppressWarnings` is set. -/
def delivers (c : Checker) (d : Diagnostic) : Bool :=
  d.isError || !c.options.messages.suppressWarnings

/-- Takes one signal in. A report that is not delivered leaves no trace, and one that is raises
`errors` if it is an error. -/
def receive (c : Checker) : Signal → Checker × Emission
  | .log event => (c, { events := [event] })
  | .report d =>
    if c.delivers d then
      ({ c with sink := c.sink.accept d, errors := c.errors + d.isError.toNat },
        { delivered := [d], events := c.sink.events d })
    else (c, {})

/-- Takes signals in, in order, and appends what they let out. -/
def receiveAll (c : Checker) : List Signal → Checker × Emission
  | [] => (c, {})
  | s :: rest =>
    let (c, first) := c.receive s
    let (c, others) := c.receiveAll rest
    (c, first ++ others)

/-- Counts one more error, with nothing reported. -/
def addError (c : Checker) : Checker := { c with errors := c.errors + 1 }

/-- Runs the check `k`, takes in its signals, and says how it ended. -/
def check (c : Checker) (loc : Location) (feature : String) (k : Check ExtensionId) :
    Checker × Emission × Except Refusal Unit :=
  let outcome := k.run c.options c.registry loc feature
  let (c, emission) := c.receiveAll outcome.signals
  (c, emission, outcome.result)

/-- Carries out a change of behaviors, and takes in its signals. The `Update` says what the registry
becomes, also where it fails. -/
def update (c : Checker) (change : Registry → Update) :
    Checker × Emission × Except Refusal Unit :=
  let u := change c.registry
  let (c, emission) := { c with registry := u.registry }.receiveAll u.signals
  (c, emission, u.result)

/-- Starts a compilation unit: every behavior is forgotten, by `Registry.reset`. -/
def beginUnit (c : Checker) : Checker := { c with registry := c.registry.reset }

/-- The identity of a name read from source, with the log entry if the name is new, as
`Registry.internEvents` says. -/
def intern (c : Checker) (name : String) : Checker × Emission × ExtensionId :=
  let (registry, id) := c.registry.intern name
  ({ c with registry }, { events := c.registry.internEvents name }, id)

/-! ## The text of a checker -/

/-- The text of a record: its `name`, and in braces its fields. -/
def recordText (name : String) (fields : List String) : String :=
  name ++ " \x7b " ++ String.intercalate ", " fields ++ " \x7d"

/-- The constant that names a profile. -/
def profileText : Profile → String
  | .none => "None"
  | .core => "Core"
  | .compatibility => "Compatibility"
  | .es => "Es"

/-- The constant that names a stage. -/
def stageText : Stage → String
  | .vertex => "Vertex"
  | .tessControl => "TessControl"
  | .tessEvaluation => "TessEvaluation"
  | .geometry => "Geometry"
  | .fragment => "Fragment"
  | .compute => "Compute"

/-- The switches that are on, by their constants and with a bar between, or `0x0`. -/
def messagesText (m : Messages) : String :=
  let constants := (m.switches.filter Prod.snd).map Prod.fst
  let word := if constants.isEmpty then "0x0" else String.intercalate " | " constants
  "MessageFlags(" ++ word ++ ")"

/-- The text of a target environment, with the names of its fields. -/
def targetText (t : Target) : String :=
  recordText "SpvVersion"
    ["spv: " ++ t.spirv.toNat.repr, "vulkan_glsl: " ++ decimal t.vulkanGlsl,
      "vulkan: " ++ decimal t.vulkan, "open_gl: " ++ decimal t.openGl]

/-- The text of a checker that reads from no cursor. Of the registry it tells how many extensions
are `tracked`. -/
def text (c : Checker) : String :=
  let o := c.options
  recordText "VersionChecker"
    ["ctx: " ++ recordText "CompilationContext"
      ["version: " ++ decimal o.version, "profile: " ++ profileText o.profile,
        "stage: " ++ stageText o.stage, "spv_version: " ++ targetText o.target,
        "forward_compatible: " ++ (if o.forwardCompatible then "true" else "false"),
        "messages: " ++ messagesText o.messages, "num_errors: " ++ c.errors.repr,
        "scanner: None"],
      "tracked_extensions: " ++ c.registry.tracked.length.repr, ".."]

end Checker

end ShaderCompat
