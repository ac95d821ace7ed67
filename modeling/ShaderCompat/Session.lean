import ShaderCompat.Checker

/-!
# Sessions

A session is a run of several checkers over the same sources. They share cursors, from which each
may read its locations, and labels under which identities were saved. A host drives it by steps;
`Session.step` gives the session after a step and what the step let out, and `Session.run` is a
whole run.

A step that is refused is answered by the reason, and leaves behind only what it let out before.
-/

namespace ShaderCompat

/-- A cursor: its `label`, and the location it stands at. -/
structure Cursor where
  label : String
  loc : Location
deriving DecidableEq, Repr

/-- A way to refer to an extension in a step. -/
inductive ExtensionRef where
  | known (e : Extension)
  /-- The identity last saved under `label`. -/
  | saved (label : String)
  | exact (id : ExtensionId)
deriving DecidableEq, Repr

/-- A way to refer to a place in the source. -/
inductive Place where
  | at (loc : Location)
  /-- Where the checker's cursor stands. -/
  | current
deriving DecidableEq, Repr

/-- A change of a checker's configuration. -/
inductive Edit where
  | version (v : Int32)
  | profile (p : Profile)
  | stage (s : Stage)
  | target (t : Target)
  | forwardCompatible (on : Bool)
  | messages (m : Messages)
deriving DecidableEq, Repr

/-- The configuration after a change: each `Edit` sets the field it is named for. -/
def Edit.apply (o : Options) : Edit → Options
  | .version v => { o with version := v }
  | .profile p => { o with profile := p }
  | .stage s => { o with stage := s }
  | .target t => { o with target := t }
  | .forwardCompatible on => { o with forwardCompatible := on }
  | .messages m => { o with messages := m }

/-- A movement of a cursor. -/
inductive Motion where
  | line (n : Int32)
  | column (n : Int32)
  | string (n : Int32)
  | name (text : String)
deriving DecidableEq, Repr

/-- The location after a movement: each `Motion` sets the field it is named for. -/
def Motion.apply (loc : Location) : Motion → Location
  | .line n => { loc with line := n }
  | .column n => { loc with column := n }
  | .string n => { loc with string := n }
  | .name text => { loc with name := some text }

/-- What a host can do with one checker of a session. -/
inductive Step where
  | check (place : Place) (feature : String) (k : Check ExtensionRef)
  | report (severity : Severity) (channel : Channel) (place : Place) (reason token extra : String)
  | addError
  | beginUnit
  | directive (line : Int32) (name keyword : String)
  | declare (place : Place) (extension : ExtensionRef) (behavior : Behavior)
  | intern (name : String) (label : Option String)
  | ask (q : Query ExtensionRef)
  | configuration
  | errorCount
  | preamble
  | text
  | edit (e : Edit)
  | newCursor (label : String) (loc : Location)
  /-- Reads locations from the newest cursor of a label from now on, or from none, and is answered
  by the label of the cursor before. -/
  | attach (label : Option String)
  | cursor
  | location
  | move (m : Motion)
  | sink
  | clearSink
deriving DecidableEq, Repr

/-- Why a step fails: an extension was `refused`, a `setup` was not possible, or a reference stands
for nothing. -/
inductive StepError where
  | setup (e : SetupError)
  | refused (e : Refusal)
  /-- The step names a checker, a label or a cursor that the session does not have. -/
  | unknownReference
deriving DecidableEq, Repr

/-- What a step is answered by. -/
inductive Answer where
  | done
  | found (f : Finding)
  | identity (id : ExtensionId)
  | count (n : Nat)
  | text (s : String)
  | configuration (c : Checker)
  | location (loc : Location)
  | label (l : Option String)
  /-- What the sink has kept, if it keeps anything, as by `Sink.kept?`. -/
  | kept (diagnostics : Option (List Diagnostic))
deriving DecidableEq, Repr

/-- Several checkers that share `cursors` and `saved` identities. -/
structure Session where
  checkers : List Checker
  cursors : List Cursor := []
  saved : List (String × ExtensionId) := []
deriving DecidableEq, Repr

/-- What a step let out (`emission`), and what it is answered by (`answer`). -/
structure Reply where
  emission : Emission := {}
  answer : Except StepError Answer

namespace Session

/-- A session with a checker for each configuration. The tags of their registries are counted up
from `1`, and wrap. -/
def start (sink : Sink) (configurations : List Options) : Session :=
  { checkers := configurations.mapIdx fun i o => .start o (UInt32.ofNat (i + 1)) sink }

/-- The session with `c` in place of the checker at `i`. -/
def withChecker (s : Session) (i : Nat) (c : Checker) : Session :=
  { s with checkers := s.checkers.set i c }

/-- The identity last saved under `label`: the newest entry of `saved` comes first. -/
def saved? (s : Session) (label : String) : Option ExtensionId := s.saved.lookup label

/-- The identity a reference stands for, which only a `saved` one may lack. -/
def resolve (s : Session) : ExtensionRef → Option ExtensionId
  | .known e => some e.id
  | .saved label => s.saved? label
  | .exact id => some id

/-- The place of the newest cursor of `label` in `cursors`. -/
def cursor? (s : Session) (label : String) : Option Nat :=
  (s.cursors.zipIdx.reverse.find? fun (cursor, _) => cursor.label == label).map Prod.snd

/-- The cursor that `c` reads from, if any. -/
def attached (s : Session) (c : Checker) : Option Cursor := c.cursor.bind fun n => s.cursors[n]?

/-- Where that cursor stands; without one it is a `noScanner` error. -/
def currentLocation (s : Session) (c : Checker) : Except SetupError Location :=
  match s.attached c with
  | some cursor => .ok cursor.loc
  | none => .error .noScanner

/-- The location a `Place` stands for. -/
def locate (s : Session) (c : Checker) : Place → Except SetupError Location
  | .at loc => .ok loc
  | .current => s.currentLocation c

/-- The location of a directive: the `line` is the directive's own, the rest the cursor's. -/
def directiveLocation (s : Session) (c : Checker) (line : Int32) : Location :=
  match s.attached c with
  | some cursor => { cursor.loc with line }
  | none => .atLine line

/-- The session in which the cursor at `n` has moved. -/
def moveCursor (s : Session) (n : Nat) (m : Motion) : Session :=
  { s with cursors := s.cursors.modify n fun cursor => { cursor with loc := m.apply cursor.loc } }

/-- A reply that lets nothing out and has an `answer`. -/
def quiet (answer : Answer) : Reply := { answer := .ok answer }

/-- A reply to a step that cannot be begun, with the error as its answer. -/
def failed (e : StepError) : Reply := { answer := .error e }

/-- Puts a checker back that has `done` something, with the reply to what it did. -/
def conclude (s : Session) (i : Nat) (done : Checker × Emission × Except Refusal Unit) :
    Session × Reply :=
  (s.withChecker i done.1,
    ⟨done.2.1, (done.2.2.map fun _ => Answer.done).mapError StepError.refused⟩)

/-- Does `act` at a place, if `locate` can tell the place. -/
def atPlace (s : Session) (c : Checker) (place : Place) (act : Location → Session × Reply) :
    Session × Reply :=
  match s.locate c place with
  | .ok loc => act loc
  | .error e => (s, failed (.setup e))

/-- Takes one step with a checker `c` that stands at place `i`. -/
def stepWith (s : Session) (i : Nat) (c : Checker) : Step → Session × Reply
  | .check place feature k =>
    s.atPlace c place fun loc =>
      match k.resolve s.resolve with
      | some k => s.conclude i (c.check loc feature k)
      | none => (s, failed .unknownReference)
  | .report severity channel place reason token extra =>
    s.atPlace c place fun loc =>
      let (c, emission) := c.receive (.report ⟨severity, channel, loc, reason, token, extra⟩)
      s.conclude i (c, emission, .ok ())
  | .addError => (s.withChecker i c.addError, quiet .done)
  | .beginUnit => (s.withChecker i c.beginUnit, quiet .done)
  | .directive line name keyword =>
    s.conclude i (c.update (Directive.apply (s.directiveLocation c line) name keyword))
  | .declare place ref b =>
    s.atPlace c place fun loc =>
      match s.resolve ref with
      | some id => s.conclude i (c.update (Directive.declare loc id b))
      | none => (s, failed .unknownReference)
  | .intern name label =>
    let (c, emission, id) := c.intern name
    let s := s.withChecker i c
    let s := match label with
      | some l => { s with saved := (l, id) :: s.saved }
      | none => s
    (s, ⟨emission, .ok (.identity id)⟩)
  | .ask q =>
    match q.resolve s.resolve with
    | some q => (s, ⟨{}, ((q.answer c.registry).map Answer.found).mapError .refused⟩)
    | none => (s, failed .unknownReference)
  | .configuration => (s, quiet (.configuration c))
  | .errorCount => (s, quiet (.count c.errors))
  | .preamble => (s, quiet (.text (ShaderCompat.preamble c.options)))
  | .text => (s, quiet (.text c.text))
  | .edit e => (s.withChecker i { c with options := e.apply c.options }, quiet .done)
  | .newCursor label loc => ({ s with cursors := s.cursors ++ [⟨label, loc⟩] }, quiet .done)
  | .attach none =>
    (s.withChecker i { c with cursor := none }, quiet (.label ((s.attached c).map Cursor.label)))
  | .attach (some label) =>
    match s.cursor? label with
    | some n =>
      (s.withChecker i { c with cursor := some n },
        quiet (.label ((s.attached c).map Cursor.label)))
    | none => (s, failed .unknownReference)
  | .cursor => (s, quiet (.label ((s.attached c).map Cursor.label)))
  | .location =>
    (s, ⟨{}, ((s.currentLocation c).map Answer.location).mapError .setup⟩)
  | .move m =>
    match c.cursor with
    | some n => (s.moveCursor n m, quiet .done)
    | none => (s, failed (.setup .noScanner))
  | .sink => (s, quiet (.kept c.sink.kept?))
  | .clearSink => (s.withChecker i { c with sink := c.sink.clear }, quiet .done)

/-- Takes one step with the checker at `i`; if there is none the step has an `unknownReference`. -/
def step (s : Session) (i : Nat) (st : Step) : Session × Reply :=
  match s.checkers[i]? with
  | some c => s.stepWith i c st
  | none => (s, failed .unknownReference)

/-- Takes steps in order, each with the checker it names, and gathers the replies. -/
def run (s : Session) : List (Nat × Step) → Session × List Reply
  | [] => (s, [])
  | (i, st) :: rest =>
    let (s, reply) := s.step i st
    let (s, replies) := s.run rest
    (s, reply :: replies)

end Session

end ShaderCompat
