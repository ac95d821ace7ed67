import ShaderCompat.Gate.Language

/-!
# The extension gate

A feature that needs one of a list of extensions. The gate is silent if one of them is on. Failing
that, extensions that are to warn make it pass with a warning each, and under relaxed errors so do
disabled ones; a refusal is an error always.
-/

namespace ShaderCompat.Gate

/-- Reads an extension that is not on, and tells whether the feature may be used on its account:
under `warn`, or, with `relaxedErrors`, under `disable`. Either way it warns. -/
def tolerate (o : Options) (r : Registry) (channel : Channel) (loc : Location) (feature : String)
    (id : ExtensionId) : Outcome Bool := do
  let b ← r.behavior id
  let name ← r.name id
  let disabled := b = .disable ∧ o.messages.relaxedErrors
  if disabled then
    Outcome.report
      ⟨.warning, channel, loc, "extension must be enabled to use this feature:", feature, name⟩
  if disabled ∨ b = .warn then
    Outcome.report ⟨.warning, channel, loc, "extension warning", feature, usage name feature⟩
    return true
  return false

/-- What a refused feature is told to ask for: one name as such, several as `Possible extensions`.
-/
def candidates : List String → String
  | [name] => name
  | names => "Possible extensions include: " ++ listing names

/-- One of `ids` must be on, or tolerated; an empty list never passes. -/
def extensions (o : Options) (r : Registry) (channel : Channel) (loc : Location)
    (ids : List ExtensionId) (feature : String) : Outcome Unit := do
  if !(← r.anyTurnedOn ids) then
    -- no extension is on, but each that warns is reported
    let tolerated ← ids.mapM (tolerate o r channel loc feature)
    if !tolerated.any id then
      Outcome.log (.extensionsRefused feature channel)
      let names ← ids.mapM fun id => liftM (r.name id)
      Outcome.report
        ⟨.error, channel, loc, "required extension not requested:", feature, candidates names⟩

end ShaderCompat.Gate
