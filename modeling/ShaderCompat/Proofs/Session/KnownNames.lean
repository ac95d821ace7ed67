import ShaderCompat.Proofs.Extension.Reports
import ShaderCompat.Proofs.Preamble
import ShaderCompat.Proofs.Session.Refusal

/-!
# Which names are known

Whether a name is known can be asked of the catalog, of a registry that finds the name or takes it
in, and of the identity that the registry gives out; a directive decides it when it remarks on an
extension. The catalog stands in front of the names of every registry, and identities behind it bear
the registry's own tag, so all of them say the same (`Registry.Sound.catalog_identity_iff`,
`Registry.Sound.known?_intern`) as long as that tag is not the catalog's. For a checker of a session
`Session.known_names` says so, and adds what follows for the extensions that a preamble announces.
-/

namespace ShaderCompat

/-! ## Names and identities -/

namespace Registry

variable {r : Registry} {text : String}

/-- `find?` gives an identity of the catalog for the names of the catalog, and for no others. -/
theorem Sound.catalog_identity_iff (hr : r.Sound) (htag : r.tag ≠ ExtensionId.catalogOwner)
    {id : ExtensionId} :
    r.find? text = some id ∧ id.isCatalog = true ↔
      (Extension.ofName? text).map Extension.id = some id := by
  constructor
  · rintro ⟨hfind, hcatalog⟩
    obtain ⟨place, hplace, rfl⟩ := exists_place_of_find? hfind
    obtain ⟨e, rfl⟩ := (hr.lt_catalog_iff hplace).mp ((isCatalog_idAt htag place).mp hcatalog)
    rw [e.ofName?_name, Option.map_some, ← hfind, hr.find?_name]
  · intro h
    obtain ⟨e, he, rfl⟩ := Option.map_eq_some_iff.mp h
    obtain rfl : e.name = text := Extension.ofName?_eq_some_iff.mp he
    exact ⟨hr.find?_name e, rfl⟩

/-- So does `intern`, which takes in a name that is not found. -/
theorem Sound.catalog_intern_iff (hr : r.Sound) (htag : r.tag ≠ ExtensionId.catalogOwner)
    {id : ExtensionId} :
    (r.intern text).2 = id ∧ id.isCatalog = true ↔
      (Extension.ofName? text).map Extension.id = some id := by
  have hsound : (r.intern text).1.Sound := (Change.intern r text).evolves.sound hr
  rw [← hsound.catalog_identity_iff ((r.tag_intern text).symm ▸ htag), hr.find?_intern,
    Option.some.injEq]

/-- What the catalog knows of the identity of a name is what it knows of the name. -/
theorem Sound.known?_intern (hr : r.Sound) (htag : r.tag ≠ ExtensionId.catalogOwner)
    (text : String) : (r.intern text).2.known? = Extension.ofName? text := by
  cases h : Extension.ofName? text with
  | some e =>
    obtain rfl : e.name = text := Extension.ofName?_eq_some_iff.mp h
    rw [hr.intern_name, ExtensionId.known?_id]
  | none =>
    refine Option.eq_none_iff_forall_ne_some.mpr fun e he => ?_
    have hid : (r.intern text).2 = e.id := Extension.eq_id_of_known? he
    have hsome := (hr.catalog_intern_iff htag).mp ⟨hid, rfl⟩
    rw [h] at hsome
    exact absurd hsome.symm (Option.some_ne_none _)

end Registry

/-! ## What a directive delivers -/

namespace Checker

/-- What an update delivers are the reports of the change that the checker delivers. -/
theorem delivered_update (c : Checker) (change : Registry → Update) :
    (c.update change).2.1.delivered =
      (reports (change c.registry).signals).filter c.delivers := by
  rw [update]
  exact receiveAll_delivered _ _

/-- The counter grows by the errors among the reports, all of which are delivered. -/
theorem errors_update (c : Checker) (change : Registry → Update) :
    (c.update change).1.errors =
      c.errors + (errorsOf (reports (change c.registry).signals)).length := by
  rw [update]
  exact congrArg Checker.errors (receiveAll_checker _ _)

variable {c : Checker}

/-- A directive delivers that an extension is not supported if it is not known, and the report is an
error or warnings are not suppressed. -/
theorem delivers_unsupported_iff (hr : c.registry.Sound)
    (htag : c.registry.tag ≠ ExtensionId.catalogOwner) {text keyword : String} {b : Behavior}
    (htext : text ≠ Directive.everyExtension) (hkeyword : Behavior.ofKeyword? keyword = some b)
    (loc : Location) :
    (∃ d ∈ (c.update (Directive.apply loc text keyword)).2.1.delivered,
        d.reason = "extension not supported:") ↔
      Extension.ofName? text = none ∧
        (b = .require ∨ c.options.messages.suppressWarnings = false) := by
  have hknown := hr.known?_intern htag text
  have hsound : (c.registry.intern text).1.Sound := (Registry.Change.intern _ _).evolves.sound hr
  rw [delivered_update, Directive.reports_apply hkeyword htext]
  cases h : Extension.ofName? text with
  | some e =>
    refine iff_of_false ?_ fun hnone => absurd hnone.1 (Option.some_ne_none e)
    rintro ⟨d, hd, hreason⟩
    rw [Extension.eq_id_of_known? (hknown.trans h)] at hd
    rw [Directive.eq_partly_of_mem_reports hsound (List.mem_of_mem_filter hd)] at hreason
    exact absurd hreason
      (show ¬("extension is only partially supported:" : String) = _ by decide)
  | none =>
    -- there is one report, and all that matters is whether it passes
    obtain ⟨slot, hname, -⟩ := Registry.exists_slot_of_served (c.registry.served_intern text)
    rw [Directive.reports_declare_unknown hsound.nodup (hknown.trans h) hname,
      List.filter_singleton]
    by_cases hb : b = .require
    · simp [hb, delivers, Diagnostic.unsupported, Diagnostic.isError]
    · cases hsuppress : c.options.messages.suppressWarnings <;>
        simp [hb, delivers, Diagnostic.unsupported, Diagnostic.isError, hsuppress]

/-- A known extension can be required, and no error is made of it. -/
theorem require_known (hr : c.registry.Sound) (e : Extension) (loc : Location) :
    (c.update (Directive.apply loc e.name "require")).2.2 = .ok () ∧
      (c.update (Directive.apply loc e.name "require")).1.errors = c.errors ∧
      ∀ d ∈ (c.update (Directive.apply loc e.name "require")).2.1.delivered,
        d.isError = false := by
  have hkeyword : Behavior.ofKeyword? "require" = some .require := by decide
  have hall : e.name ≠ Directive.everyExtension := e.name_ne_everyExtension
  have hsound : (c.registry.intern e.name).1.Sound :=
    (Registry.Change.intern _ _).evolves.sound hr
  have hquiet : ∀ d ∈ reports (Directive.apply loc e.name "require" c.registry).signals,
      d.isError = false := by
    intro d hd
    rw [Directive.reports_apply hkeyword hall, hr.intern_name] at hd
    rw [Directive.eq_partly_of_mem_reports hsound hd]
    rfl
  refine ⟨?_, ?_, ?_⟩
  · exact Directive.result_apply loc hr e.name "require"
  · have hnone : errorsOf (reports
        (Directive.apply loc e.name "require" c.registry).signals) = [] :=
      List.filter_eq_nil_iff.mpr fun d hd => Bool.eq_false_iff.mp (hquiet d hd)
    rw [errors_update, hnone]
    rfl
  · intro d hd
    rw [delivered_update] at hd
    exact hquiet d (List.mem_of_mem_filter hd)

end Checker

/-! ## A checker of a session -/

namespace Session

variable {sink : Sink} {configurations : List Options} {steps : List (Nat × Step)} {i : Nat}
  {c : Checker}

/-- As long as the checkers are fewer than the tags, no registry has the tag of the catalog: the
tags are given out from one on. -/
theorem tag_ne_catalogOwner (hcount : configurations.length < 2 ^ 32)
    (h : ((start sink configurations).run steps).1.checkers[i]? = some c) :
    c.registry.tag ≠ ExtensionId.catalogOwner := by
  obtain ⟨hi, hevolves⟩ := evolves_of_start h
  rw [hevolves.tag_eq]
  intro htag
  have hzero : (UInt32.ofNat (i + 1)).toNat = 0 := congrArg UInt32.toNat htag
  rw [UInt32.toNat_ofNat', Nat.mod_eq_of_lt (by omega)] at hzero
  exact absurd hzero (Nat.succ_ne_zero i)

/-- A session has come to a checker, and its checkers are fewer than the tags. For every text, the
catalog, the registry that finds it or takes it in, and the identity given out for it agree whether
it is known, and on its identity. A directive on a text other than `all` delivers that it is not
supported exactly if it is not known, unless that is a warning, and warnings are suppressed. A name
that any preamble announces can be required without an error. -/
theorem known_names (hcount : configurations.length < 2 ^ 32)
    (hc : ((start sink configurations).run steps).1.checkers[i]? = some c) :
    (∀ text : String,
      (∀ e, Extension.ofName? text = some e ↔ e.name = text) ∧
      (∀ id, (Extension.ofName? text).map Extension.id = some id ↔
        c.registry.find? text = some id ∧ id.isCatalog = true) ∧
      (∀ id, (Extension.ofName? text).map Extension.id = some id ↔
        (c.registry.intern text).2 = id ∧ id.isCatalog = true) ∧
      (c.registry.intern text).2.known? = Extension.ofName? text) ∧
    (∀ (text keyword : String) (b : Behavior) (loc : Location),
      text ≠ Directive.everyExtension → Behavior.ofKeyword? keyword = some b →
      ((∃ d ∈ (c.update (Directive.apply loc text keyword)).2.1.delivered,
          d.reason = "extension not supported:") ↔
        Extension.ofName? text = none ∧
          (b = .require ∨ c.options.messages.suppressWarnings = false))) ∧
    ∀ (o : Options) (name : String) (value : Int32) (loc : Location),
      (name, value) ∈ Preamble.definitions o → name ∉ Preamble.fixed →
      (c.update (Directive.apply loc name "require")).2.2 = .ok () ∧
        (c.update (Directive.apply loc name "require")).1.errors = c.errors ∧
        ∀ d ∈ (c.update (Directive.apply loc name "require")).2.1.delivered, d.isError = false := by
  have hr : c.registry.Sound := Checker.Reachable.sound ⟨sink, configurations, steps, i, hc⟩
  have htag := tag_ne_catalogOwner hcount hc
  refine ⟨fun text => ⟨fun e => Extension.ofName?_eq_some_iff,
    fun id => (hr.catalog_identity_iff htag).symm, fun id => (hr.catalog_intern_iff htag).symm,
    hr.known?_intern htag text⟩, fun text keyword b loc htext hkeyword =>
      Checker.delivers_unsupported_iff hr htag htext hkeyword loc,
    fun o name value loc hdefined hname => ?_⟩
  obtain ⟨e, rfl⟩ := Preamble.exists_extension hdefined hname
  exact Checker.require_known hr e loc

/-- A name that differs from a known one in one letter is not known, also once it was taken in. What
a preamble for the embedded profile announces can be required under any configuration. -/
theorem known_names_lookalike :
    ∃ c, ((start (.recording []) [{}]).run
        [(0, .intern "GL_EXT_gpu_shaders" none)]).1.checkers[0]? = some c ∧
      (c.registry.intern "GL_EXT_gpu_shaders").2.known? = none ∧
      (∃ d ∈ (c.update (Directive.apply {} "GL_EXT_gpu_shaders" "warn")).2.1.delivered,
        d.reason = "extension not supported:") ∧
      (c.update (Directive.apply {} "GL_EXT_gpu_shader5" "require")).1.errors = 0 := by
  have hunknown : Extension.ofName? "GL_EXT_gpu_shaders" = none := by decide +kernel
  have hdefined : ("GL_EXT_gpu_shader5", 1) ∈ Preamble.definitions { profile := .es } := by
    decide +kernel
  obtain ⟨hnames, hdirective, hpreamble⟩ := @known_names (.recording []) [{}]
    [(0, .intern "GL_EXT_gpu_shaders" none)] 0 _ (by decide) rfl
  obtain ⟨-, -, -, hknown⟩ := hnames "GL_EXT_gpu_shaders"
  obtain ⟨-, herrors, -⟩ := hpreamble _ _ _ {} hdefined (by decide +kernel)
  exact ⟨_, rfl, hknown.trans hunknown,
    (hdirective _ "warn" .warn {} (by decide +kernel) (by decide)).mpr ⟨hunknown, Or.inr rfl⟩,
    herrors⟩

/-- While warnings are suppressed nothing is delivered for a name that is not known. And if a
session has as many checkers as there are tags, one of them has the tag of the catalog, and takes
what it lists for its own. -/
theorem unknown_name_passes :
    (∃ c, (start (.recording []) [{ messages := { suppressWarnings := true } }]).checkers[0]? =
        some c ∧
      Extension.ofName? "GL_VENDOR_x" = none ∧ Behavior.ofKeyword? "enable" = some .enable ∧
      (c.update (Directive.apply {} "GL_VENDOR_x" "enable")).2.1.delivered = []) ∧
    ∃ c, (start (.recording []) (List.replicate (2 ^ 32) {})).checkers[2 ^ 32 - 1]? = some c ∧
      Extension.ofName? "GL_VENDOR_x" = none ∧
      (c.registry.intern "GL_VENDOR_x").2.isCatalog = true := by
  have hunknown : Extension.ofName? "GL_VENDOR_x" = none := by decide +kernel
  refine ⟨⟨_, rfl, hunknown, by decide, by decide +kernel⟩,
    ⟨Checker.start {} 0 (.recording []), ?_, hunknown, by decide +kernel⟩⟩
  rw [getElem?_checkers_start, List.getElem?_replicate, if_pos (by decide)]
  rfl

end Session

end ShaderCompat
