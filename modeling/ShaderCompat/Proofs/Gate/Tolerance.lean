import ShaderCompat.Proofs.Gate.ErrorCount
import ShaderCompat.Proofs.Gate.Version

/-!
# What the extension gate does

The gate is silent if a listed extension is on. Otherwise it reports each listed extension that it
tolerates, and refuses the feature if there is none. So it passes on account of the extensions that
may be used, as the version gate does, and under relaxed errors on account of all that are declared.
`Gate.extensions_of_slots` says what the gate gives off in terms of what the registry holds of the
extensions, and `Checker.extension_gate_exact` says what a checker makes of it, beside what it
answers to the questions about the same extensions.
-/

namespace ShaderCompat

namespace Gate

open Outcome

/-- One of the extensions is on: `enable` or `require`. -/
def On (slots : List Slot) : Prop := ∃ s ∈ slots, s.behavior = .enable ∨ s.behavior = .require

/-- One of the extensions is under `warn` or, with `relaxedErrors`, under `disable`. -/
def Tolerated (o : Options) (slots : List Slot) : Prop :=
  ∃ s ∈ slots, s.behavior = .warn ∨ (s.behavior = .disable ∧ o.messages.relaxedErrors = true)

instance (slots : List Slot) : Decidable (On slots) :=
  inferInstanceAs (Decidable (∃ s ∈ slots, _))

instance (o : Options) (slots : List Slot) : Decidable (Tolerated o slots) :=
  inferInstanceAs (Decidable (∃ s ∈ slots, _))

/-- The reports of an extension that is not on: that it is used if it is under `warn`, and with
`relaxedErrors`, if it is under `disable`, that it should be enabled and that it is used. -/
def allowance (o : Options) (channel : Channel) (loc : Location) (feature : String) (s : Slot) :
    List Diagnostic :=
  let used : Diagnostic :=
    ⟨.warning, channel, loc, "extension warning", feature, usage s.name feature⟩
  match s.behavior with
  | .warn => [used]
  | .disable =>
    if o.messages.relaxedErrors then
      [⟨.warning, channel, loc, "extension must be enabled to use this feature:", feature, s.name⟩,
        used]
    else []
  | _ => []

/-- The reports of the listed extensions, each by `allowance`, in the order of the list. -/
def allowances (o : Options) (channel : Channel) (loc : Location) (feature : String)
    (slots : List Slot) : List Diagnostic :=
  slots.flatMap (allowance o channel loc feature)

/-- The report that none of the listed extensions was asked for: always an `error`. -/
def notRequested (channel : Channel) (loc : Location) (feature extra : String) : Diagnostic :=
  ⟨.error, channel, loc, "required extension not requested:", feature, extra⟩

section

variable {o : Options} {r : Registry} {channel : Channel} {loc : Location} {feature : String}
variable {ids : List ExtensionId} {slots : List Slot}

/-! ## Behaviors -/

/-- `On` in the terms of the gate. -/
theorem on_iff : On slots ↔ (slots.map Slot.behavior).any Behavior.isTurnedOn = true := by
  simp only [any_behavior_iff, Behavior.isTurnedOn_iff, On]

/-- Whether some extension is declared. -/
theorem any_isDeclared_iff :
    (slots.map Slot.behavior).any Behavior.isDeclared = true ↔
      ∃ s ∈ slots, s.behavior ≠ .missing := by
  simp only [any_behavior_iff, Behavior.isDeclared_iff]

/-- `Tolerated` in the terms of the gate. -/
theorem tolerated_iff :
    Tolerated o slots ↔ (slots.map Slot.behavior).any (tolerates o) = true := by
  rw [any_behavior_iff]
  refine exists_congr fun s => and_congr_right fun _ => ?_
  rw [tolerates, decide_eq_true_eq, or_comm]

/-- What is tolerated is reported, and nothing else is. -/
theorem allowance_eq_nil_iff {s : Slot} :
    allowance o channel loc feature s = [] ↔ tolerates o s.behavior = false := by
  obtain ⟨text, b⟩ := s
  cases b <;> cases h : o.messages.relaxedErrors <;> simp [allowance, tolerates, h]

/-- There is something to report just if something is `Tolerated`. -/
theorem allowances_eq_nil_iff :
    allowances o channel loc feature slots = [] ↔ ¬Tolerated o slots := by
  rw [allowances, List.flatMap_eq_nil_iff, tolerated_iff, any_behavior_iff, not_exists]
  refine forall_congr' fun s => ?_
  rw [allowance_eq_nil_iff, not_and, Bool.not_eq_true]

/-- What `allowances` lists are warnings. -/
theorem isError_of_mem_allowances {d : Diagnostic}
    (h : d ∈ allowances o channel loc feature slots) : d.isError = false := by
  obtain ⟨s, -, hs⟩ := List.mem_flatMap.mp h
  unfold allowance at hs
  split at hs
  · rw [List.mem_singleton.mp hs]
    rfl
  · split at hs
    · rcases List.mem_pair.mp hs with rfl | rfl <;> rfl
    · exact absurd hs List.not_mem_nil
  · exact absurd hs List.not_mem_nil

/-! ## Reading the extensions -/

/-- `tolerate` reads an extension and reports its `allowance`. -/
theorem tolerate_of_slot {id : ExtensionId} {s : Slot} (h : r.slot id = .ok s) :
    tolerate o r channel loc feature id =
      ⟨(allowance o channel loc feature s).map .report, .ok (tolerates o s.behavior)⟩ := by
  obtain ⟨hname, hbehavior⟩ := slot_eq_ok_iff.mp h
  obtain ⟨text, b⟩ := s
  rw [tolerate, hname, hbehavior, tolerates, allowance]
  cases b <;> cases o.messages.relaxedErrors <;> rfl

/-- Every extension is read, and reported if it is tolerated. -/
theorem tolerate_of_slots (h : ids.mapM r.slot = .ok slots) :
    ids.mapM (tolerate o r channel loc feature) =
      ⟨(allowances o channel loc feature slots).map .report,
        .ok (slots.map fun s => tolerates o s.behavior)⟩ := by
  rw [allowances, List.map_flatMap]
  exact mapM_of_forall₂ ((mapM_eq_ok_iff.mp h).imp fun _ _ hs => tolerate_of_slot hs)

/-- The behaviors of the listed extensions are those of their slots. -/
theorem behaviors_of_slots (h : ids.mapM r.slot = .ok slots) :
    ids.mapM r.behavior = .ok (slots.map Slot.behavior) := by
  rw [mapM_eq_ok_iff, List.forall₂_map_right_iff]
  exact (mapM_eq_ok_iff.mp h).imp fun _ _ hs => (slot_eq_ok_iff.mp hs).2

/-- A question about the list is answered from the slots. -/
theorem anyOf_of_slots (hids : ∀ id ∈ ids, r.refusal? id = none) (h : ids.mapM r.slot = .ok slots)
    (p : Behavior → Bool) : r.anyOf p ids = .ok ((slots.map Slot.behavior).any p) := by
  rw [Registry.anyOf_of_served hids, Registry.any_behaviors (behaviors_of_slots h)]

/-! ## Deciding -/

variable (channel loc feature)

/-- With identities that are all served the gate gives off nothing if one is `On`, the `allowances`
if some are `Tolerated`, and else a refusal. -/
theorem extensions_of_slots (hids : ∀ id ∈ ids, r.refusal? id = none)
    (h : ids.mapM r.slot = .ok slots) :
    (On slots → extensions o r channel loc ids feature = pure ()) ∧
    (¬On slots → Tolerated o slots →
      extensions o r channel loc ids feature =
        ⟨(allowances o channel loc feature slots).map .report, .ok ()⟩) ∧
    (¬On slots → ¬Tolerated o slots →
      extensions o r channel loc ids feature =
        ⟨[.log (.extensionsRefused feature channel),
          .report (notRequested channel loc feature (candidates (slots.map Slot.name)))],
          .ok ()⟩) := by
  have hon : r.anyTurnedOn ids = .ok ((slots.map Slot.behavior).any Behavior.isTurnedOn) :=
    (r.anyTurnedOn_eq_anyOf ids).trans (anyOf_of_slots hids h Behavior.isTurnedOn)
  have hoff (hnot : ¬On slots) :
      extensions o r channel loc ids feature = refuse o r channel loc ids feature := by
    rw [on_iff, Bool.not_eq_true] at hnot
    exact extensions_of_off (hon.trans (congrArg Except.ok hnot))
  have htolerated : ((slots.map fun s => tolerates o s.behavior).any id) = true ↔
      Tolerated o slots := by
    rw [tolerated_iff, List.any_map, List.any_map]
    rfl
  refine ⟨fun hyes => ?_, fun hnot hsome => ?_, fun hnot hnone => ?_⟩
  · exact extensions_of_on (hon.trans (congrArg Except.ok (on_iff.mp hyes)))
  · rw [hoff hnot, refuse, tolerate_of_slots h, bind_of_ok rfl, htolerated.mpr hsome]
    show Outcome.mk (_ ++ []) _ = _
    rw [List.append_nil]
    rfl
  · -- if nothing is tolerated, there is nothing to report before the refusal
    have hempty : allowances o channel loc feature slots = [] := allowances_eq_nil_iff.mpr hnone
    rw [hoff hnot, refuse, tolerate_of_slots h, bind_of_ok rfl, hempty,
      Bool.eq_false_iff.mpr fun hsome => hnone (htolerated.mp hsome), names_of_slots h]
    rfl

/-- What the gate passes on account of without `relaxedErrors`: an extension that `isUsable`. -/
theorem passes_iff_of_strict (h : o.messages.relaxedErrors = false) :
    On slots ∨ Tolerated o slots ↔
      ∃ s ∈ slots, s.behavior = .warn ∨ s.behavior = .enable ∨ s.behavior = .require := by
  unfold On Tolerated
  rw [h, ← exists_or]
  refine exists_congr fun s => ?_
  simp only [Bool.false_eq_true, and_false, or_false, ← and_or_left]
  tauto

/-- What the gate passes on account of with `relaxedErrors`: an extension that `isDeclared`. -/
theorem passes_iff_of_relaxed (h : o.messages.relaxedErrors = true) :
    On slots ∨ Tolerated o slots ↔ ∃ s ∈ slots, s.behavior ≠ .missing := by
  unfold On Tolerated
  rw [h, ← exists_or]
  refine exists_congr fun s => ?_
  rw [← and_or_left]
  refine and_congr_right fun _ => ?_
  cases s.behavior <;> decide

end

/-- What a checker delivers, writes into the log and counts on account of the gate, if an extension
is `On`, if failing that one is `Tolerated`, and if there is none. -/
structure Verdict (o : Options) (channel : Channel) (loc : Location) (feature : String)
    (slots : List Slot) (ds : List Diagnostic) (events : List Event) (n : Nat) : Prop where
  on : On slots → ds = [] ∧ events = [] ∧ n = 0
  tolerated : ¬On slots → Tolerated o slots →
    ds = (if o.messages.suppressWarnings then [] else allowances o channel loc feature slots) ∧
      events = [] ∧ n = 0
  refused : ¬On slots → ¬Tolerated o slots →
    ds = [notRequested channel loc feature (candidates (slots.map Slot.name))] ∧
      events = [.extensionsRefused feature channel] ∧ n = 1

namespace Verdict

variable {o : Options} {channel : Channel} {loc : Location} {feature : String} {slots : List Slot}
variable {ds : List Diagnostic} {events : List Event} {n : Nat}

/-- The number of errors is one or none, as the feature is refused or not. -/
theorem count_eq (h : Verdict o channel loc feature slots ds events n) :
    n = (decide (¬(On slots ∨ Tolerated o slots))).toNat := by
  by_cases hon : On slots
  · rw [(h.on hon).2.2, decide_eq_false (not_not.mpr (.inl hon))]
    rfl
  by_cases hsome : Tolerated o slots
  · rw [(h.tolerated hon hsome).2.2, decide_eq_false (not_not.mpr (.inr hsome))]
    rfl
  · rw [(h.refused hon hsome).2.2, decide_eq_true (not_or.mpr ⟨hon, hsome⟩)]
    rfl

/-- There is no error just if an extension is `On` or `Tolerated`. -/
theorem count_eq_zero_iff (h : Verdict o channel loc feature slots ds events n) :
    n = 0 ↔ On slots ∨ Tolerated o slots := by
  rw [h.count_eq, Bool.toNat_eq_zero, decide_eq_false_iff_not, not_not]

/-- If no extension is on, there is a warning to deliver, or an error. -/
theorem delivers_nothing_iff (h : Verdict o channel loc feature slots ds events n)
    (hwarn : o.messages.suppressWarnings = false) : ds = [] ↔ On slots := by
  refine ⟨fun hempty => ?_, fun hon => (h.on hon).1⟩
  by_contra hon
  by_cases hsome : Tolerated o slots
  · rw [(h.tolerated hon hsome).1, hwarn] at hempty
    exact allowances_eq_nil_iff.mp hempty hsome
  · rw [(h.refused hon hsome).1] at hempty
    exact absurd hempty (List.cons_ne_nil _ _)

end Verdict

end Gate

namespace Checker

open Gate

section

variable {c : Checker} {ids : List ExtensionId} {slots : List Slot}

/-- What becomes of the signals of the gate is a `Verdict`: nothing but the sink and the counter
changes, the counter by one if and only if the feature is refused. -/
theorem exists_extension_check (hids : ∀ id ∈ ids, c.registry.refusal? id = none)
    (hslots : ids.mapM c.registry.slot = .ok slots) (channel : Channel) (loc : Location)
    (feature : String) :
    ∃ (ds : List Diagnostic) (events : List Event) (n : Nat),
      c.check loc feature (.extensions channel ids) =
        ({ c with sink := c.sink.acceptAll ds, errors := c.errors + n },
          ⟨ds, events ++ ds.flatMap c.sink.events⟩, .ok ()) ∧
      Verdict c.options channel loc feature slots ds events n := by
  obtain ⟨hsilent, hpasses, hrefuses⟩ :=
    extensions_of_slots (o := c.options) channel loc feature hids hslots
  -- the three cases of the verdict
  by_cases hon : On slots
  · have hcheck := check_of_run (.extensions channel ids) [] [] (hsilent hon) rfl rfl
    exact ⟨_, _, _, hcheck, fun _ => ⟨rfl, rfl, rfl⟩, fun h => absurd hon h, fun h => absurd hon h⟩
  by_cases htolerated : Tolerated c.options slots
  · have hwarnings : ∀ d ∈ allowances c.options channel loc feature slots, d.isError = false :=
      fun _ => isError_of_mem_allowances
    have hcheck := check_of_run (.extensions channel ids) [] _ (hpasses hon htolerated)
      (filter_delivers_of_warnings c hwarnings)
      (congrArg List.length (errorsOf_eq_nil hwarnings))
    exact ⟨_, _, _, hcheck, fun h => absurd h hon, fun _ _ => ⟨rfl, rfl, rfl⟩,
      fun _ h => absurd htolerated h⟩
  · have hcheck := check_of_run (.extensions channel ids) [.extensionsRefused feature channel] [_]
      (hrefuses hon htolerated) (List.filter_cons_of_pos (delivers_of_isError rfl)) rfl
    exact ⟨_, _, _, hcheck, fun h => absurd h hon, fun _ h => absurd h htolerated,
      fun _ _ => ⟨rfl, rfl, rfl⟩⟩

/-- Without relaxed errors a version gate that no version is enough for counts an error exactly if
none of the extensions may be used. -/
theorem errors_version_check (hids : ∀ id ∈ ids, c.registry.refusal? id = none)
    (hslots : ids.mapM c.registry.slot = .ok slots)
    (hstrict : c.options.messages.relaxedErrors = false) {profiles : ProfileSet}
    (hprofile : c.options.profile ∈ profiles) {minimum : Int32} (hminimum : ¬0 < minimum)
    (loc : Location) (feature : String) :
    (c.check loc feature (.version profiles minimum ids)).1.errors = c.errors +
      (decide (¬∃ s ∈ slots,
        s.behavior = .warn ∨ s.behavior = .enable ∨ s.behavior = .require)).toNat := by
  rw [errors_check, Check.run, errorCount_version hids,
    ← Registry.any_behaviors (behaviors_of_slots hslots)]
  congr 2
  rw [decide_eq_decide, any_isUsable_iff, hstrict]
  simp [hprofile, hminimum]

end

/-- With identities that are all served, the extension gate

* delivers nothing if one of them is turned on;
* otherwise, if one of them is to warn or, under relaxed errors, is disabled (`Gate.Tolerated`),
  delivers the warnings on all that are (`Gate.allowances`), in the order of the list, and counts
  nothing;
* otherwise delivers one error (`Gate.notRequested`), which it counts, also under relaxed errors.

Warnings are dropped if they are suppressed. If they are not, the gate is silent exactly if one of
the extensions is turned on. Under relaxed errors it counts an error exactly if none of them is
declared; without, exactly if none may be used, which is where a version gate counts one for the
same extensions if no version is enough for it. -/
theorem extension_gate_exact {c : Checker} {ids : List ExtensionId}
    (hids : ∀ id ∈ ids, c.registry.refusal? id = none) (channel : Channel) (loc : Location)
    (feature : String) :
    ∃ (slots : List Slot) (on declared : Bool) (extra : String) (ds : List Diagnostic)
        (events : List Event) (n : Nat),
      ids.mapM c.registry.slot = .ok slots ∧
      c.registry.anyTurnedOn ids = .ok on ∧
      (on = true ↔ ∃ s ∈ slots, s.behavior = .enable ∨ s.behavior = .require) ∧
      c.registry.anyDeclared ids = .ok declared ∧
      (declared = true ↔ ∃ s ∈ slots, s.behavior ≠ .missing) ∧
      c.check loc feature (.extensions channel ids) =
        ({ c with sink := c.sink.acceptAll ds, errors := c.errors + n },
          ⟨ds, events ++ ds.flatMap c.sink.events⟩, .ok ()) ∧
      (on = true → ds = [] ∧ events = [] ∧ n = 0) ∧
      (on = false → Tolerated c.options slots →
        ds = (if c.options.messages.suppressWarnings then []
          else allowances c.options channel loc feature slots) ∧ events = [] ∧ n = 0) ∧
      (on = false → ¬Tolerated c.options slots →
        ds = [notRequested channel loc feature extra] ∧
        events = [.extensionsRefused feature channel] ∧ n = 1) ∧
      (∀ s, slots = [s] → extra = s.name) ∧
      (ids.length ≠ 1 → extra = "Possible extensions include: " ++
        String.intercalate ", " (slots.map Slot.name)) ∧
      (c.options.messages.suppressWarnings = false → (ds = [] ↔ on = true)) ∧
      (c.options.messages.relaxedErrors = true → (n = 0 ↔ declared = true)) ∧
      (c.options.messages.relaxedErrors = false →
        (n = 0 ↔ ∃ s ∈ slots,
          s.behavior = .warn ∨ s.behavior = .enable ∨ s.behavior = .require) ∧
        ∀ (profiles : ProfileSet) (minimum : Int32), c.options.profile ∈ profiles → ¬0 < minimum →
          (c.check loc feature (.version profiles minimum ids)).1.errors = c.errors + n) := by
  obtain ⟨slots, hslots⟩ := exists_slots hids
  have hlength : ids.length = slots.length := (mapM_eq_ok_iff.mp hslots).length_eq
  have hon := (c.registry.anyTurnedOn_eq_anyOf ids).trans
    (anyOf_of_slots hids hslots Behavior.isTurnedOn)
  have hdeclared := (c.registry.anyDeclared_eq_anyOf ids).trans
    (anyOf_of_slots hids hslots Behavior.isDeclared)
  have honIff : On slots ↔ (slots.map Slot.behavior).any Behavior.isTurnedOn = true := on_iff
  have hdeclaredIff : (slots.map Slot.behavior).any Behavior.isDeclared = true ↔
      ∃ s ∈ slots, s.behavior ≠ .missing := any_isDeclared_iff
  generalize (slots.map Slot.behavior).any Behavior.isTurnedOn = on at hon honIff
  generalize (slots.map Slot.behavior).any Behavior.isDeclared = declared
    at hdeclared hdeclaredIff
  obtain ⟨ds, events, n, hcheck, hverdict⟩ :=
    exists_extension_check hids hslots channel loc feature
  have hoff : on = false ↔ ¬On slots := by rw [honIff, Bool.not_eq_true]
  refine ⟨slots, on, declared, candidates (slots.map Slot.name), ds, events, n, hslots, hon,
    honIff.symm, hdeclared, hdeclaredIff, hcheck, fun h => hverdict.on (honIff.mpr h),
    fun h => hverdict.tolerated (hoff.mp h), fun h => hverdict.refused (hoff.mp h), ?_,
    fun h => ?_, fun h => ?_, fun h => ?_,
    fun h => ⟨?_, fun profiles minimum hprofile hminimum => ?_⟩⟩
  · rintro s rfl
    rfl
  · rw [hlength] at h
    match slots, h with
    | [], _ | _ :: _ :: _, _ => rfl
  · rw [hverdict.delivers_nothing_iff h, honIff]
  · rw [hverdict.count_eq_zero_iff, passes_iff_of_relaxed h, hdeclaredIff]
  · rw [hverdict.count_eq_zero_iff, passes_iff_of_strict h]
  · rw [errors_version_check hids hslots h hprofile hminimum, hverdict.count_eq,
      decide_eq_decide.mpr (not_congr (passes_iff_of_strict h))]

/-- Under relaxed errors a disabled extension lets a feature pass with two warnings and one that is
to warn with one, while an extension that was never declared is passed over. -/
theorem extension_gate_exact_relaxed :
    ∃ (c : Checker) (disabled used warned : Diagnostic),
      (∀ id ∈ [Extension.arbGpuShaderInt64.id, ⟨79, 1⟩, Extension.extFragDepth.id],
        c.registry.refusal? id = none) ∧
      disabled = ⟨.warning, .preprocessor, .atLine 4,
        "extension must be enabled to use this feature:", "texel_x", "GL_ARB_gpu_shader_int64"⟩ ∧
      used = ⟨.warning, .preprocessor, .atLine 4, "extension warning", "texel_x",
        "extension GL_ARB_gpu_shader_int64 is being used for texel_x"⟩ ∧
      warned = ⟨.warning, .preprocessor, .atLine 4, "extension warning", "texel_x",
        "extension GL_EXT_frag_depth is being used for texel_x"⟩ ∧
      c.check (.atLine 4) "texel_x" (.extensions .preprocessor
          [Extension.arbGpuShaderInt64.id, ⟨79, 1⟩, Extension.extFragDepth.id]) =
        ({ c with sink := .recording [disabled, used, warned] },
          ⟨[disabled, used, warned], []⟩, .ok ()) := by
  let r : Registry :=
    (Directive.apply {} "GL_EXT_frag_depth" "warn"
      (Directive.apply {} "GL_ARB_gpu_shader_int64" "disable"
        ((Registry.fresh 1).intern "GL_VENDOR_x").1).registry).registry
  let c : Checker :=
    { Checker.start { messages := { relaxedErrors := true } } 1 (.recording []) with registry := r }
  have hids : ∀ id ∈ [Extension.arbGpuShaderInt64.id, ⟨79, 1⟩, Extension.extFragDepth.id],
      c.registry.refusal? id = none := by decide +kernel
  have hslots : [Extension.arbGpuShaderInt64.id, ⟨79, 1⟩, Extension.extFragDepth.id].mapM r.slot =
      .ok [⟨"GL_ARB_gpu_shader_int64", .disable⟩, ⟨"GL_VENDOR_x", .missing⟩,
        ⟨"GL_EXT_frag_depth", .warn⟩] := by decide +kernel
  have hoff : r.anyTurnedOn [Extension.arbGpuShaderInt64.id, ⟨79, 1⟩, Extension.extFragDepth.id] =
      .ok false := by decide +kernel
  obtain ⟨slots, on, declared, extra, ds, events, n, hslots', hon, -, -, -, hcheck, -, hpasses,
      -⟩ :=
    extension_gate_exact (c := c) hids .preprocessor (.atLine 4) "texel_x"
  obtain rfl := Except.ok.inj (hslots'.symm.trans hslots)
  obtain rfl := Except.ok.inj (hon.symm.trans hoff)
  have hsome : Tolerated c.options [⟨"GL_ARB_gpu_shader_int64", .disable⟩,
      ⟨"GL_VENDOR_x", .missing⟩, ⟨"GL_EXT_frag_depth", .warn⟩] := by decide
  obtain ⟨rfl, rfl, rfl⟩ := hpasses rfl hsome
  exact ⟨c, _, _, _, hids, rfl, rfl, rfl, hcheck⟩

end Checker

end ShaderCompat
