import ShaderCompat.Options
import ShaderCompat.Signal

/-!
# Language gates

The gates on what a shader declares: its profile, its version and its stage. Each takes the options,
the place and the name of a feature, and refuses the feature by a report; a gate that passes may
still warn. Profile and version refusals are warnings under relaxed errors, stage refusals never.
-/

namespace ShaderCompat

/-- The severity of a profile or version refusal: a warning with `relaxedErrors`. -/
def Options.mismatch (o : Options) : Severity :=
  if o.messages.relaxedErrors then .warning else .error

namespace Gate

/-- Reports an error to the channel `parse`. -/
def error (loc : Location) (reason feature extra : String) : Outcome Unit :=
  .report ⟨.error, .parse, loc, reason, feature, extra⟩

/-- Reports a warning to the channel `parse`. -/
def warning (loc : Location) (reason feature extra : String) : Outcome Unit :=
  .report ⟨.warning, .parse, loc, reason, feature, extra⟩

/-- Reports a profile or version refusal, with the severity `Options.mismatch`. -/
def mismatch (o : Options) (loc : Location) (reason feature extra : String) : Outcome Unit :=
  .report ⟨o.mismatch, .parse, loc, reason, feature, extra⟩

/-- Names in a row, with `, ` between them. -/
def listing (names : List String) : String := String.intercalate ", " names

/-- How the use of an extension under `warn` is described. -/
def usage (name feature : String) : String :=
  "extension " ++ name ++ " is being used for " ++ feature

/-- The profile must be one of `profiles`. -/
def profile (o : Options) (loc : Location) (profiles : ProfileSet) (feature : String) :
    Outcome Unit := do
  if o.profile ∉ profiles then
    Outcome.log (.profileRefused feature o.profile)
    mismatch o loc "not supported with this profile:" feature o.profile.label

/-- Reads an extension that could make a feature available, and reports its use under `warn`. The
behavior is returned. -/
def consult (r : Registry) (loc : Location) (feature : String) (id : ExtensionId) :
    Outcome Behavior := do
  let b ← r.behavior id
  if b = .warn then
    warning loc "extension warning" feature (usage (← r.name id) feature)
  return b

/-- What a feature needs: a version, unless `minimum` is not positive, or an extension. -/
def requirement (minimum : Int32) (names : List String) : String :=
  if 0 < minimum then
    "requires version " ++ decimal minimum ++
      (if names.isEmpty then "" else " or one of: " ++ listing names)
  else "requires one of: " ++ listing names

/-- In `profiles`, a feature needs version `minimum` or a usable extension; elsewhere the gate
passes. No version is enough if `minimum` is not positive. -/
def version (o : Options) (r : Registry) (loc : Location) (profiles : ProfileSet) (minimum : Int32)
    (ids : List ExtensionId) (feature : String) : Outcome Unit := do
  if o.profile ∈ profiles then
    -- every extension is read, and its use reported, even if the version is enough
    let seen ← ids.mapM (consult r loc feature)
    if ¬(0 < minimum ∧ minimum ≤ o.version) ∧ ¬seen.any Behavior.isUsable then
      Outcome.log (.versionRefused feature o.version minimum)
      let names ← ids.mapM fun id => liftM (r.name id)
      mismatch o loc "not supported for this version or the enabled extensions" feature
        (requirement minimum names)

/-- The stage must be one of `stages`. -/
def stage (o : Options) (loc : Location) (stages : StageSet) (feature : String) : Outcome Unit := do
  if o.stage ∉ stages then
    Outcome.log (.stageRefused feature o.stage)
    let allowed := stages.listed.map Stage.title
    error loc "not supported in this stage:" feature
      (o.stage.title ++ " (allowed: " ++ listing allowed ++ ")")

/-- A feature that `profiles` deprecate from some version on: an error in forward-compatible mode,
a warning otherwise. -/
def deprecated (o : Options) (loc : Location) (profiles : ProfileSet) (since : Int32)
    (feature : String) : Outcome Unit := do
  if o.profile ∈ profiles ∧ since ≤ o.version then
    if o.forwardCompatible then
      error loc "deprecated, may be removed in future release" feature ""
    else
      warning loc "deprecated" feature
        ("deprecated in version " ++ decimal since ++ "; may be removed in future release")

/-- A feature that `profiles` removed at some version. -/
def removed (o : Options) (loc : Location) (profiles : ProfileSet) (since : Int32)
    (feature : String) : Outcome Unit := do
  if o.profile ∈ profiles ∧ since ≤ o.version then
    error loc "no longer supported in" feature
      (o.profile.label ++ " profile; removed in version " ++ decimal since)

/-- A feature the grammar knows and the compiler does not implement: always an error, and no entry
in the log. -/
def unimplemented (loc : Location) (feature : String) : Outcome Unit :=
  error loc "feature not yet implemented" feature ""

end Gate

end ShaderCompat
