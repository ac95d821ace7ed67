import ShaderCompat.Gate.Extension
import ShaderCompat.Proofs.Extension.Refusal

/-!
# What the extension gate does

The gate first looks for an extension that is on. If that ends in a refusal or finds one, there is
nothing more to it; otherwise it is `Gate.refuse`, which tolerates what it can. How that ends
depends on the behaviors alone (`Gate.result_refuse`).
-/

namespace ShaderCompat

/-- An identity that has a behavior has a name. -/
theorem Registry.exists_name_of_behavior {r : Registry} {id : ExtensionId} {b : Behavior}
    (h : r.behavior id = .ok b) : ∃ text, r.name id = .ok text := by
  obtain ⟨s, hname, -⟩ := exists_slot_of_served (served_of_behavior h)
  exact ⟨s.name, hname⟩

namespace Gate

open Outcome

variable {o : Options} {r : Registry} {channel : Channel} {loc : Location} {feature : String}

/-! ## Tolerating -/

/-- Whether a feature may be used on account of an extension that is not on: it is to `warn` or,
under relaxed errors, is disabled. -/
def tolerates (o : Options) (b : Behavior) : Bool :=
  (b = .disable ∧ o.messages.relaxedErrors) ∨ b = .warn

/-- `tolerate` finds whether the gate `tolerates` the behavior. -/
theorem result_tolerate (id : ExtensionId) :
    (tolerate o r channel loc feature id).result = (r.behavior id).map (tolerates o) := by
  unfold tolerate tolerates
  cases hb : r.behavior id with
  | error e => rfl
  | ok b =>
    obtain ⟨text, htext⟩ := Registry.exists_name_of_behavior hb
    rw [htext]
    cases b <;> cases o.messages.relaxedErrors <;> rfl

/-- Going through a list with `tolerate` ends as reading the behaviors does. -/
theorem result_mapM_tolerate (ids : List ExtensionId) :
    (ids.mapM (tolerate o r channel loc feature)).result =
      (ids.mapM r.behavior).map (List.map (tolerates o)) := by
  rw [result_mapM]
  induction ids with
  | nil => rfl
  | cons id ids ih =>
    rw [List.mapM_cons, List.mapM_cons, ih, result_tolerate]
    cases r.behavior id with
    | error e => rfl
    | ok b => cases ids.mapM r.behavior <;> rfl

/-- Identities that all have behaviors all have names. -/
theorem exists_names {ids : List ExtensionId} {bs : List Behavior}
    (h : ids.mapM r.behavior = .ok bs) :
    ∃ texts, (ids.mapM fun id => (liftM (r.name id) : Outcome String)).result = .ok texts := by
  rw [result_mapM]
  cases hnames : ids.mapM fun id => (liftM (r.name id) : Outcome String).result with
  | ok texts => exact ⟨texts, rfl⟩
  | error e =>
    -- the first refused identity would have no behavior either
    have hfirst : ids.findSome? r.refusal? = some e :=
      (mapM_eq_error_iff fun _ _ => Registry.name_eq_error_iff).mp hnames
    rw [Registry.mapM_behavior_eq_error_iff.mpr hfirst] at h
    exact absurd h.symm (ok_ne_error _ _)

/-! ## Refusing -/

/-- What the extension gate does if no extension is on. -/
def refuse (o : Options) (r : Registry) (channel : Channel) (loc : Location)
    (ids : List ExtensionId) (feature : String) : Outcome Unit := do
  let tolerated ← ids.mapM (tolerate o r channel loc feature)
  if !tolerated.any id then
    log (.extensionsRefused feature channel)
    let names ← ids.mapM fun id => liftM (r.name id)
    report ⟨.error, channel, loc, "required extension not requested:", feature, candidates names⟩

/-- An identity that is refused before an extension that is on ends the gate. -/
theorem extensions_of_error {ids : List ExtensionId} {e : Refusal}
    (h : r.anyTurnedOn ids = .error e) :
    extensions o r channel loc ids feature = ⟨[], .error e⟩ := by
  rw [extensions, h]
  rfl

/-- An extension that is on ends the gate, in silence. -/
theorem extensions_of_on {ids : List ExtensionId} (h : r.anyTurnedOn ids = .ok true) :
    extensions o r channel loc ids feature = pure () := by
  rw [extensions, h]
  rfl

/-- If no extension is on, the gate is `refuse`. -/
theorem extensions_of_off {ids : List ExtensionId} (h : r.anyTurnedOn ids = .ok false) :
    extensions o r channel loc ids feature = refuse o r channel loc ids feature := by
  rw [extensions, h]
  rfl

/-- A refusal depends on the registry alone, not on what is tolerated. -/
theorem result_refuse (ids : List ExtensionId) :
    (refuse o r channel loc ids feature).result = (ids.mapM r.behavior).map fun _ => () := by
  rw [refuse, result_bind, result_mapM_tolerate]
  cases hbs : ids.mapM r.behavior with
  | error e => rfl
  | ok bs =>
    obtain ⟨texts, htexts⟩ := exists_names hbs
    show (if !(bs.map (tolerates o)).any id then _ else _ : Outcome Unit).result = .ok ()
    cases (bs.map (tolerates o)).any id with
    | true => rfl
    | false =>
      show (log _ >>= fun _ => _ >>= fun names => _ : Outcome Unit).result = .ok ()
      rw [result_bind, result_bind, htexts]
      rfl

end Gate

end ShaderCompat
