import ShaderCompat.Proofs.Gate.Refusal
import ShaderCompat.Proofs.Reporting

/-!
# What the version gate does

The gate is about some profiles and passes in all others. Where it is about the profile, it reads
every extension it lists and reports each use of one that is to warn, whether or not that comes to
matter. Then it passes if the version is enough or one of the extensions may be used, and refuses
the feature otherwise. `Gate.version_of_slots` says so in terms of what the registry holds of the
extensions, and `Checker.version_gate_exact` says what a checker makes of it.
-/

namespace ShaderCompat

namespace Gate

open Outcome

/-- The reports of the listed extensions that are to `warn`, one for each time that one is listed.
-/
def uses (loc : Location) (feature : String) (slots : List Slot) : List Diagnostic :=
  (slots.filter fun s => s.behavior = .warn).map fun s =>
    ⟨.warning, .parse, loc, "extension warning", feature, usage s.name feature⟩

/-- The version is enough for a feature that needs `minimum`, or one of the extensions may be
used. -/
def Available (o : Options) (minimum : Int32) (slots : List Slot) : Prop :=
  (0 < minimum ∧ minimum ≤ o.version) ∨
    ∃ s ∈ slots, s.behavior = .warn ∨ s.behavior = .enable ∨ s.behavior = .require

/-- The report that a feature is refused for the version and the extensions. -/
def unavailable (severity : Severity) (loc : Location) (feature extra : String) : Diagnostic :=
  ⟨severity, .parse, loc, "not supported for this version or the enabled extensions", feature,
    extra⟩

section

variable {o : Options} {r : Registry} {loc : Location} {feature : String}
variable {ids : List ExtensionId} {slots : List Slot}

/-! ## Reading the extensions -/

/-- A `slot` is a name and a behavior. -/
theorem slot_eq_ok_iff {id : ExtensionId} {s : Slot} :
    r.slot id = .ok s ↔ r.name id = .ok s.name ∧ r.behavior id = .ok s.behavior := by
  unfold Registry.slot
  cases hname : r.name id with
  | error e =>
      refine iff_of_false ?_ fun h => ok_ne_error _ _ h.1.symm
      exact (ok_ne_error _ _).symm
  | ok text =>
      cases hbehavior : r.behavior id with
      | error e =>
          refine iff_of_false ?_ fun h => ok_ne_error _ _ h.2.symm
          exact (ok_ne_error _ _).symm
      | ok b =>
          show Except.ok (Slot.mk text b) = Except.ok s ↔ Except.ok text = _ ∧ Except.ok b = _
          rw [Except.ok.injEq, Except.ok.injEq, Except.ok.injEq]
          constructor
          · rintro rfl
            exact ⟨rfl, rfl⟩
          · rintro ⟨rfl, rfl⟩
            rfl

/-- A list of identities that are all served stands for a list of extensions. -/
theorem exists_slots (h : ∀ id ∈ ids, r.refusal? id = none) :
    ∃ slots, ids.mapM r.slot = .ok slots := by
  induction ids with
  | nil => exact ⟨[], rfl⟩
  | cons id ids ih =>
      obtain ⟨hid, hids⟩ := List.forall_mem_cons.mp h
      obtain ⟨s, hs⟩ := Registry.exists_slot_of_served hid
      obtain ⟨slots, hslots⟩ := ih hids
      refine ⟨s :: slots, ?_⟩
      rw [List.mapM_cons, slot_eq_ok_iff.mpr hs, hslots]
      rfl

/-- The names of the listed extensions, which are looked up without a report. -/
theorem names_of_slots (h : ids.mapM r.slot = .ok slots) :
    (ids.mapM fun id => (liftM (r.name id) : Outcome String)) =
      ⟨[], .ok (slots.map Slot.name)⟩ := by
  have hnames : List.Forall₂
      (fun id s => (liftM (r.name id) : Outcome String) = ⟨[], .ok s.name⟩) ids slots := by
    refine (mapM_eq_ok_iff.mp h).imp fun id s hs => ?_
    rw [(slot_eq_ok_iff.mp hs).1]
    rfl
  rw [mapM_of_forall₂ hnames, List.flatMap_eq_nil_iff.mpr fun _ _ => rfl]

/-- The uses of a list are those of each extension in it. -/
theorem uses_eq_flatMap (slots : List Slot) :
    uses loc feature slots = slots.flatMap fun s => uses loc feature [s] := by
  induction slots with
  | nil => rfl
  | cons s slots ih =>
      rw [List.flatMap_cons, ← ih, uses, uses, uses, ← List.map_append, ← List.filter_append,
        List.singleton_append]

/-- An extension is read, and its use is reported if it is to warn. -/
theorem consult_of_slot {id : ExtensionId} {s : Slot} (h : r.slot id = .ok s) :
    consult r loc feature id = ⟨(uses loc feature [s]).map .report, .ok s.behavior⟩ := by
  obtain ⟨hname, hbehavior⟩ := slot_eq_ok_iff.mp h
  obtain ⟨text, b⟩ := s
  rw [consult, hname, hbehavior]
  cases b <;> rfl

/-- Every extension is read, and its use is reported if it is to warn. -/
theorem consult_of_slots (h : ids.mapM r.slot = .ok slots) :
    ids.mapM (consult r loc feature) =
      ⟨(uses loc feature slots).map .report, .ok (slots.map Slot.behavior)⟩ := by
  rw [uses_eq_flatMap, List.map_flatMap]
  exact mapM_of_forall₂ ((mapM_eq_ok_iff.mp h).imp fun _ _ hs => consult_of_slot hs)

/-- What a refused feature is told to ask for. -/
theorem requirement_of_slots (h : ids.mapM r.slot = .ok slots) (minimum : Int32) :
    (0 < minimum → ids = [] →
      requirement minimum (slots.map Slot.name) = "requires version " ++ decimal minimum) ∧
    (0 < minimum → ids ≠ [] →
      requirement minimum (slots.map Slot.name) = "requires version " ++ decimal minimum ++
        " or one of: " ++ String.intercalate ", " (slots.map Slot.name)) ∧
    (¬0 < minimum → requirement minimum (slots.map Slot.name) =
      "requires one of: " ++ String.intercalate ", " (slots.map Slot.name)) := by
  have hlength : ids.length = slots.length := (mapM_eq_ok_iff.mp h).length_eq
  have hempty : (slots.map Slot.name).isEmpty = true ↔ ids = [] := by
    rw [List.isEmpty_iff, List.map_eq_nil_iff, ← List.length_eq_zero_iff, ← hlength,
      List.length_eq_zero_iff]
  unfold requirement listing
  refine ⟨fun hpos hids => ?_, fun hpos hids => ?_, fun hpos => if_neg hpos⟩
  · rw [if_pos hpos, if_pos (hempty.mpr hids), String.append_empty]
  · rw [if_pos hpos, if_neg fun h => hids (hempty.mp h), ← String.append_assoc]

/-! ## Deciding -/

/-- Whether some extension has a behavior of the kind `p`. -/
theorem any_behavior_iff (p : Behavior → Bool) :
    (slots.map Slot.behavior).any p = true ↔ ∃ s ∈ slots, p s.behavior = true := by
  rw [List.any_map, List.any_eq_true]
  rfl

/-- One of the extensions may be used. -/
theorem any_isUsable_iff :
    (slots.map Slot.behavior).any Behavior.isUsable = true ↔
      ∃ s ∈ slots, s.behavior = .warn ∨ s.behavior = .enable ∨ s.behavior = .require := by
  simp only [any_behavior_iff, Behavior.isUsable_iff]

/-- `Available` in the terms of the gate. -/
theorem available_iff {minimum : Int32} :
    Available o minimum slots ↔
      ¬(¬(0 < minimum ∧ minimum ≤ o.version) ∧
        ¬(slots.map Slot.behavior).any Behavior.isUsable = true) := by
  rw [Available, ← any_isUsable_iff]
  tauto

/-- An extension that is to warn may be used, so a feature is refused without a warning. -/
theorem uses_of_not_available {minimum : Int32} (h : ¬Available o minimum slots) :
    uses loc feature slots = [] := by
  rw [uses, List.map_eq_nil_iff, List.filter_eq_nil_iff]
  intro s hs hwarn
  exact h (.inr ⟨s, hs, .inl (of_decide_eq_true hwarn)⟩)

/-- Uses are warnings. -/
theorem isError_of_mem_uses {d : Diagnostic} (h : d ∈ uses loc feature slots) :
    d.isError = false := by
  obtain ⟨s, -, rfl⟩ := List.mem_map.mp h
  rfl

variable (loc feature)

/-- In its profiles the gate gives off the uses if the feature is `Available`, and a refusal if not.
-/
theorem version_of_slots (hslots : ids.mapM r.slot = .ok slots) {profiles : ProfileSet}
    (hprofile : o.profile ∈ profiles) (minimum : Int32) :
    (Available o minimum slots →
      version o r loc profiles minimum ids feature =
        ⟨(uses loc feature slots).map .report, .ok ()⟩) ∧
    (¬Available o minimum slots →
      version o r loc profiles minimum ids feature =
        ⟨[.log (.versionRefused feature o.version minimum),
          .report (unavailable o.mismatch loc feature
            (requirement minimum (slots.map Slot.name)))], .ok ()⟩) := by
  rw [version, if_pos hprofile, consult_of_slots hslots, names_of_slots hslots]
  constructor
  · intro havailable
    rw [bind_of_ok rfl, if_neg (available_iff.mp havailable)]
    show Outcome.mk (_ ++ []) _ = _
    rw [List.append_nil]
    rfl
  · intro hrefused
    rw [bind_of_ok rfl, if_pos (not_not.mp (mt available_iff.mpr hrefused)),
      uses_of_not_available hrefused]
    rfl

/-- Outside its profiles the gate does not look at anything. -/
theorem version_of_notMem {profiles : ProfileSet} (h : o.profile ∉ profiles) (minimum : Int32) :
    version o r loc profiles minimum ids feature = pure () := by
  rw [version, if_neg h]

end

end Gate

namespace Checker

open Gate

/-- With identities that are all served, the version gate

* delivers nothing if it is not about the profile;
* otherwise, if the version is enough or an extension may be used (`Gate.Available`), delivers the
  warnings on the listed extensions that are to warn (`Gate.uses`), in the order of the list, and
  counts nothing;
* otherwise delivers one refusal (`Gate.unavailable`), which is a counted error, or under relaxed
  errors a warning.

Warnings are dropped if they are suppressed. Nothing but the sink and the counter changes, and the
log has an entry of the gate's own exactly if the feature is refused. -/
theorem version_gate_exact {c : Checker} {ids : List ExtensionId}
    (hids : ∀ id ∈ ids, c.registry.refusal? id = none) (loc : Location) (profiles : ProfileSet)
    (minimum : Int32) (feature : String) :
    ∃ (slots : List Slot) (extra : String) (ds : List Diagnostic) (events : List Event) (n : Nat),
      ids.mapM c.registry.slot = .ok slots ∧
      c.check loc feature (.version profiles minimum ids) =
        ({ c with sink := c.sink.acceptAll ds, errors := c.errors + n },
          ⟨ds, events ++ ds.flatMap c.sink.events⟩, .ok ()) ∧
      (c.options.profile ∉ profiles → ds = [] ∧ events = [] ∧ n = 0) ∧
      (c.options.profile ∈ profiles → Available c.options minimum slots →
        ds = (if c.options.messages.suppressWarnings then [] else uses loc feature slots) ∧
        events = [] ∧ n = 0) ∧
      (c.options.profile ∈ profiles → ¬Available c.options minimum slots →
        events = [.versionRefused feature c.options.version minimum] ∧
        (c.options.messages.relaxedErrors = false →
          ds = [unavailable .error loc feature extra] ∧ n = 1) ∧
        (c.options.messages.relaxedErrors = true →
          ds = (if c.options.messages.suppressWarnings then []
            else [unavailable .warning loc feature extra]) ∧ n = 0)) ∧
      (0 < minimum → ids = [] → extra = "requires version " ++ decimal minimum) ∧
      (0 < minimum → ids ≠ [] → extra = "requires version " ++ decimal minimum ++ " or one of: " ++
        String.intercalate ", " (slots.map Slot.name)) ∧
      (¬0 < minimum → extra = "requires one of: " ++
        String.intercalate ", " (slots.map Slot.name)) := by
  obtain ⟨slots, hslots⟩ := exists_slots hids
  have htexts := requirement_of_slots hslots minimum
  by_cases hprofile : c.options.profile ∈ profiles
  · obtain ⟨hpasses, hrefuses⟩ :=
      version_of_slots loc feature hslots hprofile minimum
    by_cases havailable : Available c.options minimum slots
    · have hwarnings : ∀ d ∈ uses loc feature slots, d.isError = false :=
        fun _ => isError_of_mem_uses
      have hcheck := check_of_run (.version profiles minimum ids) [] _
        (hpasses havailable) (filter_delivers_of_warnings c hwarnings)
        (congrArg List.length (errorsOf_eq_nil hwarnings))
      exact ⟨slots, _, _, [], 0, hslots, hcheck, fun h => absurd hprofile h,
        fun _ _ => ⟨rfl, rfl, rfl⟩, fun _ h => absurd havailable h, htexts⟩
    · have hrun := hrefuses havailable
      -- the refusal is an error, which is always delivered, or a warning, which may be dropped
      cases hrelaxed : c.options.messages.relaxedErrors with
      | false =>
          rw [Options.mismatch, if_neg (Bool.eq_false_iff.mp hrelaxed)] at hrun
          have hcheck := check_of_run (.version profiles minimum ids)
            [.versionRefused feature c.options.version minimum] [_] hrun
            (List.filter_cons_of_pos (delivers_of_isError rfl)) rfl
          exact ⟨slots, _, _, _, _, hslots, hcheck, fun h => absurd hprofile h,
            fun _ h => absurd h havailable,
            fun _ _ => ⟨rfl, fun _ => ⟨rfl, rfl⟩, fun h => absurd h Bool.false_ne_true⟩, htexts⟩
      | true =>
          rw [Options.mismatch, if_pos hrelaxed] at hrun
          have hcheck := check_of_run (.version profiles minimum ids)
            [.versionRefused feature c.options.version minimum] [_] hrun
            (filter_delivers_of_warnings c (List.forall_mem_singleton.mpr rfl)) rfl
          exact ⟨slots, _, _, _, _, hslots, hcheck, fun h => absurd hprofile h,
            fun _ h => absurd h havailable,
            fun _ _ =>
              ⟨rfl, fun h => absurd h.symm Bool.false_ne_true, fun _ => ⟨rfl, rfl⟩⟩,
            htexts⟩
  · have hcheck := check_of_run (.version profiles minimum ids) [] []
      (version_of_notMem loc feature hprofile minimum) rfl rfl
    exact ⟨slots, _, [], [], 0, hslots, hcheck, fun _ => ⟨rfl, rfl, rfl⟩,
      fun h => absurd h hprofile, fun h => absurd h hprofile, htexts⟩

/-- An extension that is disabled, one that is missing, and the first once more do not make up for
the version. The refusal names all three. -/
theorem version_gate_exact_repeated :
    ∃ (c : Checker) (d : Diagnostic),
      (∀ id ∈ [Extension.arbGpuShader5.id, ⟨79, 1⟩, Extension.arbGpuShader5.id],
        c.registry.refusal? id = none) ∧
      d = ⟨.error, .parse, .atLine 4,
        "not supported for this version or the enabled extensions", "texel_x",
        "requires version 400 or one of: GL_ARB_gpu_shader5, GL_VENDOR_x, GL_ARB_gpu_shader5"⟩ ∧
      c.check (.atLine 4) "texel_x" (.version .desktop 400
          [Extension.arbGpuShader5.id, ⟨79, 1⟩, Extension.arbGpuShader5.id]) =
        ({ c with sink := .recording [d], errors := 1 },
          ⟨[d], [.versionRefused "texel_x" 330 400]⟩, .ok ()) := by
  let r : Registry :=
    (Directive.apply {} "GL_ARB_gpu_shader5" "disable"
      ((Registry.fresh 1).intern "GL_VENDOR_x").1).registry
  let c : Checker :=
    { Checker.start { version := 330, profile := .core } 1 (.recording []) with registry := r }
  have hids : ∀ id ∈ [Extension.arbGpuShader5.id, ⟨79, 1⟩, Extension.arbGpuShader5.id],
      c.registry.refusal? id = none := by decide +kernel
  have hslots : [Extension.arbGpuShader5.id, ⟨79, 1⟩, Extension.arbGpuShader5.id].mapM r.slot =
      .ok [⟨"GL_ARB_gpu_shader5", .disable⟩, ⟨"GL_VENDOR_x", .missing⟩,
        ⟨"GL_ARB_gpu_shader5", .disable⟩] := by decide +kernel
  obtain ⟨slots, extra, ds, events, n, hslots', hcheck, -, -, hrefused, -, hextra, -⟩ :=
    version_gate_exact (c := c) hids (.atLine 4) .desktop 400 "texel_x"
  obtain rfl := Except.ok.inj (hslots'.symm.trans hslots)
  have hnone : ¬Gate.Available c.options 400 [⟨"GL_ARB_gpu_shader5", .disable⟩,
      ⟨"GL_VENDOR_x", .missing⟩, ⟨"GL_ARB_gpu_shader5", .disable⟩] := by
    simp [Gate.Available, c, Checker.start]
  obtain ⟨rfl, hstrict, -⟩ := hrefused (by decide) hnone
  obtain ⟨rfl, rfl⟩ := hstrict rfl
  obtain rfl := hextra (by decide) (List.cons_ne_nil _ _)
  refine ⟨c, _, hids, ?_, hcheck⟩
  decide +kernel

end Checker

end ShaderCompat
