import ShaderCompat.Proofs.Gate.ErrorCount
import ShaderCompat.Proofs.Gate.Tolerance

/-!
# How many errors the scalar checks make

A scalar check runs two to four gates, each about some of the profiles. The gates about different
profiles exclude each other, so a feature is refused once where it is refused, but for the integer
types of an extension, which are refused once for the extension and once for what the shader
declares. `Checker.scalar_errors_exact` has the exact numbers.
-/

namespace ShaderCompat

namespace Registry

/-- An extension of the catalog may be used: it is to `warn`, enabled or required. -/
def Usable (r : Registry) (e : Extension) : Prop :=
  ∃ b, r.behavior e.id = .ok b ∧ (b = .warn ∨ b = .enable ∨ b = .require)

/-- `Usable` as a gate on the one extension has it. -/
theorem usable_iff {r : Registry} {e : Extension} :
    r.Usable e ↔ [e.id].any (r.has Behavior.isUsable) = true := by
  rw [List.any_cons, List.any_nil, Bool.or_false, has, Usable]
  cases r.behavior e.id with
  | error refusal => simp
  | ok b => simp [Behavior.isUsable_iff]

instance (r : Registry) (e : Extension) : Decidable (r.Usable e) :=
  decidable_of_iff _ usable_iff.symm

end Registry

/-! ## Gates -/

/-- `only` has the one profile. -/
theorem ProfileSet.mem_only_iff {p q : Profile} : p ∈ ProfileSet.only q ↔ p = q := by
  cases p <;> cases q <;> decide

/-- The named desktop profiles are two. -/
theorem Gate.mem_namedDesktop_iff {p : Profile} :
    p ∈ Gate.namedDesktop ↔ p = .core ∨ p = .compatibility := by
  cases p <;> decide

namespace Check

variable {o : Options} {r : Registry}

/-- The gate that the feature is in a named desktop profile raises an error in the other two. -/
theorem raises_namedDesktop_iff :
    (Check.profile Gate.namedDesktop).raises o r = true ↔
      (o.profile = .none ∨ o.profile = .es) ∧ o.messages.relaxedErrors = false := by
  rw [raises_profile, decide_eq_true_eq, Bool.not_eq_true o.messages.relaxedErrors,
    Gate.mem_namedDesktop_iff]
  cases o.profile <;> simp

/-- A version gate that some version is enough for raises an error below that version, unless one of
the extensions may be used. -/
theorem raises_version_iff {minimum : Int32} (h : 0 < minimum) (profiles : ProfileSet)
    (ids : List ExtensionId) :
    (Check.version profiles minimum ids).raises o r = true ↔
      o.profile ∈ profiles ∧ o.version < minimum ∧ ¬ids.any (r.has Behavior.isUsable) = true ∧
        o.messages.relaxedErrors = false := by
  rw [raises_version, decide_eq_true_eq, Bool.not_eq_true o.messages.relaxedErrors]
  simp only [h, true_and, Int32.not_le]

/-- An extension gate on one extension raises an error if the extension may not be used, and under
relaxed errors if it is missing. -/
theorem raises_extensions_iff (hr : r.Sound) (channel : Channel) (e : Extension) :
    (Check.extensions channel [e.id]).raises o r = true ↔
      if o.messages.relaxedErrors then r.behavior e.id = .ok .missing else ¬r.Usable e := by
  obtain ⟨s, -, hb⟩ := Registry.exists_slot_of_served (hr.refusal?_id e)
  rw [raises_extensions, List.any_cons, List.any_nil, Bool.or_false, Registry.has, hb,
    Registry.Usable, hb]
  obtain ⟨text, b⟩ := s
  cases hrelaxed : o.messages.relaxedErrors <;> cases b <;>
    simp [Options.lets, Gate.tolerates, Behavior.isTurnedOn, hrelaxed]

/-! ## Scalar checks -/

/-- How many gates of a check raise an error, as `raises` says. -/
def faults (o : Options) (r : Registry) (k : Check ExtensionId) (feature : String) : Nat :=
  (k.parts feature).countP fun part => part.1.raises o r

section

variable (feature : String)

/-- Full integers: two gates, on two profiles. -/
theorem faults_fullInteger (hstrict : o.messages.relaxedErrors = false) :
    faults o r .fullInteger feature =
      if (o.profile = .none ∧ o.version < 130) ∨ (o.profile = .es ∧ o.version < 300) then 1
      else 0 := by
  simp only [faults, parts, List.countP_cons, List.countP_nil, ProfileSet.mem_only_iff,
    raises_version_iff (by decide : (0 : Int32) < 130),
    raises_version_iff (by decide : (0 : Int32) < 300), List.any_nil]
  cases o.profile <;> simp [hstrict]

/-- Double precision: a gate on the named profiles, and one for each of them. -/
theorem faults_double (hstrict : o.messages.relaxedErrors = false) :
    faults o r .double feature =
      if o.profile = .none ∨ o.profile = .es ∨ (o.profile = .core ∧ o.version < 400) ∨
        (o.profile = .compatibility ∧ o.version < 400 ∧ ¬r.Usable .arbGpuShaderFp64) then 1
      else 0 := by
  simp only [faults, parts, List.countP_cons, List.countP_nil, ProfileSet.mem_only_iff,
    raises_version_iff (by decide : (0 : Int32) < 400), raises_namedDesktop_iff, List.any_nil,
    ← Registry.usable_iff]
  cases o.profile <;> simp [hstrict]

/-- Integers of an extension: a gate on the extension, and the gates on what the shader declares, of
which one at most raises an error. -/
theorem faults_sizedInteger (hr : r.Sound) (hstrict : o.messages.relaxedErrors = false)
    (e : Extension) (title op : String) :
    ((sizedIntegerParts e title op).countP fun part => part.1.raises o r) =
      (if r.Usable e then 0 else 1) +
        if o.profile = .none ∨ o.profile = .es ∨ o.version < 450 then 1 else 0 := by
  simp only [sizedIntegerParts, List.countP_cons, List.countP_nil, ProfileSet.mem_only_iff,
    raises_version_iff (by decide : (0 : Int32) < 450), raises_namedDesktop_iff,
    raises_extensions_iff hr, List.any_nil]
  cases o.profile <;> simp [hstrict, Nat.add_comm]

/-- Half precision: a gate on the named profiles, and one on the version for both of them. -/
theorem faults_float16 (hstrict : o.messages.relaxedErrors = false) :
    faults o r (.float16 false) feature =
      if o.profile = .none ∨ o.profile = .es ∨
        (o.version < 450 ∧ ¬r.Usable .amdGpuShaderHalfFloat) then 1
      else 0 := by
  simp only [faults, parts, Bool.false_eq_true, if_false, List.countP_cons, List.countP_nil,
    Gate.mem_namedDesktop_iff, raises_version_iff (by decide : (0 : Int32) < 450),
    raises_namedDesktop_iff, ← Registry.usable_iff]
  cases o.profile <;> simp [hstrict]

/-! Under relaxed errors only an extension gate raises an error. -/

/-- A profile gate only warns. -/
theorem raises_profile_of_relaxed (hrelaxed : o.messages.relaxedErrors = true)
    (profiles : ProfileSet) : (Check.profile profiles).raises o r = false := by
  rw [raises_profile]
  exact decide_eq_false fun h => h.2 hrelaxed

/-- A version gate only warns. -/
theorem raises_version_of_relaxed (hrelaxed : o.messages.relaxedErrors = true)
    (profiles : ProfileSet) (minimum : Int32) (ids : List ExtensionId) :
    (Check.version profiles minimum ids).raises o r = false := by
  rw [raises_version]
  exact decide_eq_false fun h => h.2.2.2 hrelaxed

/-- So the checks without an extension gate raise nothing. -/
theorem faults_of_relaxed (hrelaxed : o.messages.relaxedErrors = true) {k : Check ExtensionId}
    (hk : k = .fullInteger ∨ k = .double ∨ k = .float16 false) : faults o r k feature = 0 := by
  rcases hk with rfl | rfl | rfl <;>
    simp [faults, parts, raises_profile_of_relaxed hrelaxed, raises_version_of_relaxed hrelaxed]

/-- Integers of an extension are refused if the extension is missing. -/
theorem faults_sizedInteger_of_relaxed (hr : r.Sound)
    (hrelaxed : o.messages.relaxedErrors = true) (e : Extension) (title op : String) :
    ((sizedIntegerParts e title op).countP fun part => part.1.raises o r) =
      if r.behavior e.id = .ok .missing then 1 else 0 := by
  simp only [sizedIntegerParts, List.countP_cons, List.countP_nil,
    raises_profile_of_relaxed hrelaxed, raises_version_of_relaxed hrelaxed,
    raises_extensions_iff hr, hrelaxed, Bool.false_eq_true, if_false, if_true, Nat.zero_add]

end

end Check

namespace Checker

/-- A check succeeds, delivers `n` errors, and counts each of them. -/
def Makes (c : Checker) (loc : Location) (feature : String) (k : Check ExtensionId) (n : Nat) :
    Prop :=
  (c.check loc feature k).2.2 = .ok () ∧
    (errorsOf (c.check loc feature k).2.1.delivered).length = n ∧
    (c.check loc feature k).1.errors = c.errors + n

/-- A check that lists no extension of its own makes an error for each gate in it that raises one.
-/
theorem makes_faults {c : Checker} (hr : c.registry.Sound) {k : Check ExtensionId}
    (hids : k.ids = []) (loc : Location) (feature : String) :
    c.Makes loc feature k (k.faults c.options c.registry feature) := by
  have hserved : ∀ id ∈ k.ids, c.registry.refusal? id = none := by
    rw [hids]
    exact fun id hid => absurd hid List.not_mem_nil
  have hcount : (k.run c.options c.registry loc feature).errorCount =
      k.faults c.options c.registry feature :=
    Check.errorCount_run hr.refusal?_id hserved feature
  refine ⟨?_, ?_, ?_⟩
  · -- a sound registry refuses no identity of the catalog
    cases hresult : (k.run c.options c.registry loc feature).result with
    | ok _ => exact hresult
    | error e =>
      rw [Check.run_eq_error_iff hr, Check.refusal?_of_served hserved] at hresult
      exact absurd hresult (Option.some_ne_none e).symm
  · rw [check, receiveAll_delivered, errorsOf_filter_delivers]
    exact hcount
  · rw [errors_check, hcount]

/-- How many errors the scalar checks make without relaxed errors: the profile, the version, and
whether the extension of the check is `Usable` tell the number. -/
structure StrictScalars (c : Checker) (loc : Location) (op : String) : Prop where
  fullInteger : c.Makes loc op .fullInteger
    (if (c.options.profile = .none ∧ c.options.version < 130) ∨
      (c.options.profile = .es ∧ c.options.version < 300) then 1 else 0)
  double : c.Makes loc op .double
    (if c.options.profile = .none ∨ c.options.profile = .es ∨
      (c.options.profile = .core ∧ c.options.version < 400) ∨
      (c.options.profile = .compatibility ∧ c.options.version < 400 ∧
        ¬c.registry.Usable .arbGpuShaderFp64) then 1 else 0)
  int64 : c.Makes loc op (.int64 false)
    ((if c.registry.Usable .arbGpuShaderInt64 then 0 else 1) +
      if c.options.profile = .none ∨ c.options.profile = .es ∨ c.options.version < 450 then 1
      else 0)
  int16 : c.Makes loc op (.int16 false)
    ((if c.registry.Usable .amdGpuShaderInt16 then 0 else 1) +
      if c.options.profile = .none ∨ c.options.profile = .es ∨ c.options.version < 450 then 1
      else 0)
  float16 : c.Makes loc op (.float16 false)
    (if c.options.profile = .none ∨ c.options.profile = .es ∨
      (c.options.version < 450 ∧ ¬c.registry.Usable .amdGpuShaderHalfFloat) then 1 else 0)

/-- How many errors the scalar checks make under relaxed errors: none, but for the checks of the
integer types of an extension, which make one if the extension is missing. -/
structure RelaxedScalars (c : Checker) (loc : Location) (op : String) : Prop where
  fullInteger : c.Makes loc op .fullInteger 0
  double : c.Makes loc op .double 0
  int64 : c.Makes loc op (.int64 false)
    (if c.registry.behavior Extension.arbGpuShaderInt64.id = .ok .missing then 1 else 0)
  int16 : c.Makes loc op (.int16 false)
    (if c.registry.behavior Extension.amdGpuShaderInt16.id = .ok .missing then 1 else 0)
  float16 : c.Makes loc op (.float16 false) 0

/-- A checker whose registry is sound makes the errors of `StrictScalars`, or under relaxed errors
those of `RelaxedScalars`. Whatever the registry, a check for a declaration that is built in does
nothing at all. -/
theorem scalar_errors_exact (c : Checker) (loc : Location) (op : String) :
    (c.registry.Sound → c.options.messages.relaxedErrors = false → c.StrictScalars loc op) ∧
    (c.registry.Sound → c.options.messages.relaxedErrors = true → c.RelaxedScalars loc op) ∧
    ∀ k : Check ExtensionId, k = .int64 true ∨ k = .int16 true ∨ k = .float16 true →
      c.check loc op k = (c, {}, .ok ()) := by
  refine ⟨fun hr hstrict => ?_, fun hr hrelaxed => ?_, ?_⟩
  · have hsized := Check.faults_sizedInteger hr hstrict
    exact {
      fullInteger := Check.faults_fullInteger op hstrict ▸ makes_faults hr rfl loc op
      double := Check.faults_double op hstrict ▸ makes_faults hr rfl loc op
      int64 := hsized .arbGpuShaderInt64 "shader int64" op ▸ makes_faults hr rfl loc op
      int16 := hsized .amdGpuShaderInt16 "shader int16" op ▸ makes_faults hr rfl loc op
      float16 := Check.faults_float16 op hstrict ▸ makes_faults hr rfl loc op }
  · have hnone {k : Check ExtensionId} (hk : k = .fullInteger ∨ k = .double ∨ k = .float16 false)
        (hids : k.ids = []) : c.Makes loc op k 0 := by
      rw [← Check.faults_of_relaxed (r := c.registry) op hrelaxed hk]
      exact makes_faults hr hids loc op
    have hsized := Check.faults_sizedInteger_of_relaxed hr hrelaxed
    exact {
      fullInteger := hnone (.inl rfl) rfl
      double := hnone (.inr (.inl rfl)) rfl
      int64 := hsized .arbGpuShaderInt64 "shader int64" op ▸ makes_faults hr rfl loc op
      int16 := hsized .amdGpuShaderInt16 "shader int16" op ▸ makes_faults hr rfl loc op
      float16 := hnone (.inr (.inr rfl)) rfl }
  · rintro k (rfl | rfl | rfl) <;> rfl

/-- In the embedded profile a 16-bit integer whose extension is disabled is refused twice, and not
at all under relaxed errors. -/
theorem scalar_errors_exact_embedded :
    ∃ c c' : Checker, c.registry.Sound ∧ c.options.profile = .es ∧
      c.registry.behavior Extension.amdGpuShaderInt16.id = .ok .disable ∧
      c'.registry = c.registry ∧
      c.options.messages.relaxedErrors = false ∧ c'.options.messages.relaxedErrors = true ∧
      c.Makes (.atLine 2) "int16_t" (.int16 false) 2 ∧
      c'.Makes (.atLine 2) "int16_t" (.int16 false) 0 := by
  let r : Registry := (Directive.apply {} "GL_AMD_gpu_shader_int16" "disable" (.fresh 1)).registry
  have hr : r.Sound := (Registry.evolves_directive _ _ _ _).sound (Registry.sound_fresh 1)
  have hdisabled : r.behavior Extension.amdGpuShaderInt16.id = .ok .disable := by decide +kernel
  have hunusable : ¬r.Usable .amdGpuShaderInt16 := by decide +kernel
  let c : Checker :=
    { Checker.start { version := 310, profile := .es } 1 .tracing with registry := r }
  let c' : Checker :=
    { Checker.start { version := 310, profile := .es, messages := { relaxedErrors := true } } 1
        .tracing with registry := r }
  obtain ⟨hstrict, -⟩ := scalar_errors_exact c (.atLine 2) "int16_t"
  obtain ⟨-, hrelaxed, -⟩ := scalar_errors_exact c' (.atLine 2) "int16_t"
  have htwice := (hstrict hr rfl).int16
  have hnone := (hrelaxed hr rfl).int16
  rw [if_neg hunusable, if_pos (.inr (.inl rfl))] at htwice
  have hdeclared : ¬r.behavior Extension.amdGpuShaderInt16.id = .ok .missing := by
    rw [hdisabled]
    decide
  rw [if_neg hdeclared] at hnone
  exact ⟨c, c', hr, rfl, hdisabled, rfl, rfl, rfl, htwice, hnone⟩

end Checker

end ShaderCompat
