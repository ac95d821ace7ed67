import ShaderCompat.Location

/-!
# Diagnostics

What a check tells the host about the shader, and the line of text that shows it.
-/

namespace ShaderCompat

/-- Whether a diagnostic fails the compilation (`error`) or not. -/
inductive Severity where
  | error
  | warning
deriving DecidableEq, Repr

/-- The phase of the front end that reports. -/
inductive Channel where
  | parse
  | preprocessor
deriving DecidableEq, Repr

/-- Every `Severity`. -/
def Severity.all : List Severity := [.error, .warning]

/-- The text of a severity, as documents write it. -/
def Severity.label : Severity → String
  | .error => "error"
  | .warning => "warning"

/-- The severity that has `text` for its `label`. -/
def Severity.ofLabel? (text : String) : Option Severity :=
  Severity.all.find? fun s => s.label == text

/-- The word a diagnostic line starts with, unlike `label` in capitals. -/
def Severity.heading : Severity → String
  | .error => "ERROR"
  | .warning => "WARNING"

/-- Every `Channel`. -/
def Channel.all : List Channel := [.parse, .preprocessor]

/-- The text of a channel, as documents and the log write it. -/
def Channel.label : Channel → String
  | .parse => "parse"
  | .preprocessor => "preprocessor"

/-- The channel that has `text` for its `label`. -/
def Channel.ofLabel? (text : String) : Option Channel :=
  Channel.all.find? fun c => c.label == text

/-- One report about the shader. `render` makes a line of it. -/
structure Diagnostic where
  severity : Severity
  channel : Channel
  loc : Location
  /-- What is wrong, in a few words. -/
  reason : String
  /-- The token or feature it is about. -/
  token : String
  /-- Further detail, which may be empty and is then left out by `render`. -/
  extra : String
deriving DecidableEq, Repr

namespace Diagnostic

/-- Whether the report is an error. It is counted then, and never suppressed. -/
def isError (d : Diagnostic) : Bool :=
  match d.severity with
  | .error => true
  | .warning => false

/-- The line that shows a diagnostic; an empty `extra` leaves no blank behind. -/
def render (d : Diagnostic) : String :=
  d.severity.heading ++ ": " ++ d.loc.render ++ ": '" ++ d.token ++ "' : " ++ d.reason ++
    (if d.extra = "" then "" else " " ++ d.extra)

end Diagnostic

end ShaderCompat
