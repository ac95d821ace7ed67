import ShaderCompat.Proofs.Session.KnownNames

/-!
# How a directive is handled

A directive is rejected for its keyword, or because it would turn all extensions on. Then there is
one error, and the registry stays as it is. Any other directive is accepted, and however many
extensions it reaches there is one report at most. `Directive.Handled` says what is reported and
what becomes of the registry, from the texts of the directive, the catalog, and the registry before
it; every registry handles every directive so (`Directive.handled_apply`), and a checker that a
session has come to delivers what is reported, or the errors of it (`Session.directive_handled`).
-/

namespace ShaderCompat

namespace Directive

/-- A directive is rejected for its keyword, or because it would turn all extensions on. -/
def Rejected (text keyword : String) : Prop :=
  keyword ∉ keywords ∨ text = everyExtension ∧ (keyword = "require" ∨ keyword = "enable")

instance (text keyword : String) : Decidable (Rejected text keyword) :=
  inferInstanceAs (Decidable
    (keyword ∉ keywords ∨ text = everyExtension ∧ (keyword = "require" ∨ keyword = "enable")))

/-- The error that rejects a directive. -/
def rejection (loc : Location) (keyword : String) : Diagnostic :=
  if keyword ∈ keywords then
    ⟨.error, .parse, loc, "extension 'all' cannot have 'require' or 'enable' behavior",
      "#extension", ""⟩
  else ⟨.error, .parse, loc, "behavior not supported:", "#extension", keyword⟩

/-- What the reports on a directive are, and how the registry after it differs from that before. -/
structure Handled (loc : Location) (text keyword : String) (r r' : Registry)
    (made : List Diagnostic) : Prop where
  /-- All reports are parse reports at the place of the directive. -/
  place : ∀ d ∈ made, d.channel = .parse ∧ d.loc = loc ∧ d.token = "#extension"
  /-- A rejection is reported just if the directive is rejected. -/
  rejection_iff : rejection loc keyword ∈ made ↔ Rejected text keyword
  /-- A rejected directive is one error, and leaves the registry as it is. -/
  rejected : Rejected text keyword → made = [rejection loc keyword] ∧ r' = r
  /-- There is never more than one report. -/
  length_le : made.length ≤ 1
  /-- Nothing is said of a directive about all extensions that is accepted. -/
  all : ¬Rejected text keyword → text = everyExtension → made = []
  /-- A name that is not known is reported, as an error just if it is required. Only in a registry
  with the catalog's tag and as many names as there are places its identity could be taken for one
  of the catalog. -/
  unknown : ¬Rejected text keyword → text ≠ everyExtension → Extension.ofName? text = none →
    r.tag ≠ ExtensionId.catalogOwner ∨ r.size < 2 ^ 32 →
    ∃ d, made = [d] ∧ d.reason = "extension not supported:" ∧
      (d.severity = .error ↔ keyword = "require") ∧ (r.size < 2 ^ 32 → d.extra = text)
  /-- A known extension is warned of just if it is partly supported and missing so far. -/
  known : ¬Rejected text keyword → ∀ e : Extension, e.name = text →
    made = if e.entry.support = .partly ∧ r.behaviorOf text = .ok .missing then
      [.partly loc text] else []
  /-- The behavior of an accepted directive is recorded, whether or not the name is known. -/
  recorded : ¬Rejected text keyword → text ≠ everyExtension →
    ∃ b : Behavior, b.label = keyword ∧ r'.behaviorOf text = .ok b
  /-- No name is taken in but that of an accepted directive, if it is new. -/
  names : r'.names = r.names ∨ ¬Rejected text keyword ∧ text ≠ everyExtension ∧ text ∉ r.names ∧
    r'.names = r.names ++ [text]

section

variable {r : Registry} {loc : Location} {text keyword : String} {b : Behavior}

/-- With a keyword that is known a directive is rejected just if it would turn all extensions on. -/
theorem rejected_iff (h : Behavior.ofKeyword? keyword = some b) :
    Rejected text keyword ↔ text = everyExtension ∧ b.isTurnedOn = true := by
  have hkeyword : keyword ∈ keywords := Behavior.mem_keywords_iff.mpr ⟨b, h⟩
  obtain ⟨rfl, hmissing⟩ := Behavior.ofKeyword?_eq_some_iff.mp h
  rw [Rejected, or_iff_right (not_not_intro hkeyword)]
  refine and_congr_right' ?_
  cases b <;> decide

/-! ## Rejection -/

/-- A rejected directive gives off its `rejection` alone, and leaves the registry as it is. -/
theorem apply_of_rejected (h : Rejected text keyword) :
    apply loc text keyword r =
      { registry := r, signals := [.report (rejection loc keyword)] } := by
  cases hkeyword : Behavior.ofKeyword? keyword with
  | none =>
    rw [apply, hkeyword, rejection, if_neg (Behavior.notMem_keywords hkeyword)]
    rfl
  | some b =>
    obtain ⟨htext, hon⟩ := (rejected_iff hkeyword).mp h
    rw [apply, hkeyword, rejection, if_pos (Behavior.mem_keywords_iff.mpr ⟨b, hkeyword⟩)]
    simp only [htext, hon, if_true]
    rfl

/-- And that is as `Handled` has it. -/
theorem handled_of_rejected (h : Rejected text keyword) :
    Handled loc text keyword r r [rejection loc keyword] where
  place d hd := by
    obtain rfl := List.mem_singleton.mp hd
    unfold rejection
    split <;> exact ⟨rfl, rfl, rfl⟩
  rejection_iff := iff_of_true (List.mem_singleton_self _) h
  rejected _ := ⟨rfl, rfl⟩
  length_le := Nat.le_refl 1
  all hnot := absurd h hnot
  unknown hnot := absurd h hnot
  known hnot := absurd h hnot
  recorded hnot := absurd h hnot
  names := Or.inl rfl

/-! ## All extensions -/

/-- An accepted directive on all extensions says nothing, and takes no name in. -/
theorem handled_all (h : ¬Rejected everyExtension keyword) (b : Behavior) :
    Handled loc everyExtension keyword r (r.setDeclared b) [] where
  place _ hd := absurd hd List.not_mem_nil
  rejection_iff := iff_of_false List.not_mem_nil h
  rejected hyes := absurd hyes h
  length_le := Nat.zero_le 1
  all _ _ := rfl
  unknown _ htext := absurd rfl htext
  known _ e he := absurd he e.name_ne_everyExtension
  recorded _ htext := absurd rfl htext
  names := Or.inl rfl

/-! ## One extension -/

/-- What a declaration reports, it reports at its place, and it is no `rejection`. -/
theorem mem_reports_declare (hr : r.Sound) {id : ExtensionId} (h : r.refusal? id = none)
    {d : Diagnostic} (hd : d ∈ reports (declare loc id b r).signals) :
    (d.channel = .parse ∧ d.loc = loc ∧ d.token = "#extension") ∧
      ∀ keyword, d ≠ rejection loc keyword := by
  -- an identity of the catalog has the report of partial support, any other that of no support
  cases hknown : id.known? with
  | some e =>
    obtain rfl := Extension.eq_id_of_known? hknown
    rw [eq_partly_of_mem_reports hr hd]
    refine ⟨⟨rfl, rfl, rfl⟩, fun keyword => ?_⟩
    unfold rejection
    split <;> simp [Diagnostic.partly]
  | none =>
    obtain ⟨slot, hname, -⟩ := Registry.exists_slot_of_served h
    rw [reports_declare_unknown hr.nodup hknown hname] at hd
    obtain rfl := List.mem_singleton.mp hd
    refine ⟨⟨rfl, rfl, rfl⟩, fun keyword => ?_⟩
    unfold rejection
    split <;> simp [Diagnostic.unsupported]

/-- A declaration reports no more than once. -/
theorem length_reports_declare (hr : r.Sound) {id : ExtensionId} (h : r.refusal? id = none) :
    (reports (declare loc id b r).signals).length ≤ 1 := by
  cases hknown : id.known? with
  | some e =>
    obtain rfl := Extension.eq_id_of_known? hknown
    rw [reports_declare_known hr]
    split
    · exact Nat.le_refl 1
    · exact Nat.zero_le 1
  | none =>
    obtain ⟨slot, hname, -⟩ := Registry.exists_slot_of_served h
    rw [reports_declare_unknown hr.nodup hknown hname]
    exact Nat.le_refl 1

/-- A name that is not known is taken in, and reported. -/
theorem exists_report_unknown (hr : r.Sound) (hunknown : Extension.ofName? text = none)
    (hids : r.tag ≠ ExtensionId.catalogOwner ∨ r.size < 2 ^ 32) :
    ∃ d, reports (declare loc (r.intern text).2 b (r.intern text).1).signals = [d] ∧
      d.reason = "extension not supported:" ∧ (d.severity = .error ↔ b.label = "require") ∧
      (r.size < 2 ^ 32 → d.extra = text) := by
  have hsound : (r.intern text).1.Sound := (Registry.Change.intern r text).evolves.sound hr
  have hknown : (r.intern text).2.known? = none := by
    rw [← hunknown]
    rcases hids with htag | hsize
    · exact hr.known?_intern htag text
    · exact hsound.known?_of_find? (Nat.le_trans (r.size_intern_le text) hsize)
        (hr.find?_intern text)
  obtain ⟨slot, hname, -⟩ := Registry.exists_slot_of_served (r.served_intern text)
  refine ⟨_, reports_declare_unknown hsound.nodup hknown hname, rfl, ?_, fun hsize => ?_⟩
  · show (if b = .require then Severity.error else .warning) = .error ↔ b.label = "require"
    cases b <;> decide
  · have hown := Registry.name_of_find? (Nat.le_trans (r.size_intern_le text) hsize)
      (hr.find?_intern text)
    exact Except.ok.inj (hname.symm.trans hown)

/-- A known name is reported if it is partly supported and missing before the directive: taking it
in makes no difference, since it is listed. -/
theorem reports_known (hr : r.Sound) (e : Extension) :
    reports (declare loc (r.intern e.name).2 b (r.intern e.name).1).signals =
      if e.entry.support = .partly ∧ r.behaviorOf e.name = .ok .missing then [.partly loc e.name]
      else [] := by
  have hsound : (r.intern e.name).1.Sound := (Registry.Change.intern r e.name).evolves.sound hr
  rw [hr.intern_name, reports_declare_known hsound, Registry.recorded_intern hr.nodup]
  refine if_congr (and_congr_right' ?_) rfl rfl
  rw [hr.behaviorOf_name, Except.ok.injEq]

/-- After the declaration the behavior is found under the name. -/
theorem behaviorOf_declare_intern (hr : r.Sound) :
    (declare loc (r.intern text).2 b (r.intern text).1).registry.behaviorOf text = .ok b := by
  have hsound : (r.intern text).1.Sound := (Registry.Change.intern r text).evolves.sound hr
  obtain ⟨slot, hname, -⟩ := Registry.exists_slot_of_served (r.served_intern text)
  have hfind := ((r.intern text).1.evolves_declare loc (r.intern text).2 b).find?_eq_some hsound
    (hr.find?_intern text)
  rw [Registry.behaviorOf, hfind]
  exact hsound.behavior_declare hname loc b

/-- An accepted directive on one name is as `Handled` has it. -/
theorem handled_declare (hr : r.Sound) (hkeyword : Behavior.ofKeyword? keyword = some b)
    (htext : text ≠ everyExtension) :
    Handled loc text keyword r (declare loc (r.intern text).2 b (r.intern text).1).registry
      (reports (declare loc (r.intern text).2 b (r.intern text).1).signals) := by
  have hsound : (r.intern text).1.Sound := (Registry.Change.intern r text).evolves.sound hr
  have hserved : (r.intern text).1.refusal? (r.intern text).2 = none := r.served_intern text
  have hnot : ¬Rejected text keyword := fun h => htext ((rejected_iff hkeyword).mp h).1
  obtain ⟨rfl, -⟩ := Behavior.ofKeyword?_eq_some_iff.mp hkeyword
  exact {
    place := fun d hd => (mem_reports_declare hsound hserved hd).1
    rejection_iff :=
      iff_of_false (fun h => (mem_reports_declare hsound hserved h).2 b.label rfl) hnot
    rejected := fun h => absurd h hnot
    length_le := length_reports_declare hsound hserved
    all := fun _ h => absurd h htext
    unknown := fun _ _ hunknown hids => exists_report_unknown hr hunknown hids
    known := by
      rintro - e rfl
      exact reports_known hr e
    recorded := fun _ _ => ⟨b, rfl, behaviorOf_declare_intern hr⟩
    names := by
      rw [Registry.names_declare]
      by_cases hmem : text ∈ r.names
      · exact Or.inl (congrArg Registry.names (Registry.intern_of_mem hmem))
      · exact Or.inr ⟨hnot, htext, hmem, Registry.names_intern_of_notMem hmem⟩ }

end

/-- Every registry that is `Sound` handles every directive so. -/
theorem handled_apply {r : Registry} (hr : r.Sound) (loc : Location) (text keyword : String) :
    Handled loc text keyword r (apply loc text keyword r).registry
      (reports (apply loc text keyword r).signals) := by
  -- the three ways of `Directive.apply`: rejected, on all extensions, on one
  by_cases hrejected : Rejected text keyword
  · rw [apply_of_rejected hrejected]
    exact handled_of_rejected hrejected
  have hkeyword : keyword ∈ keywords := not_not.mp fun h => hrejected (Or.inl h)
  obtain ⟨b, hb⟩ := Behavior.mem_keywords_iff.mp hkeyword
  by_cases htext : text = everyExtension
  · subst htext
    have hon : ¬b.isTurnedOn = true := fun h => hrejected ((rejected_iff hb).mpr ⟨rfl, h⟩)
    have happly : apply loc everyExtension keyword r =
        { registry := r.setDeclared b, signals := [.log (r.setDeclaredEvent b)] } := by
      rw [apply, hb]
      simp only [if_true, hon]
      rfl
    rw [happly]
    exact handled_all hrejected b
  · rw [Registry.registry_directive_of_ne hb htext, reports_apply hb htext]
    exact handled_declare hr hb htext

end Directive

namespace Session

variable {sink : Sink} {configurations : List Options} {steps : List (Nat × Step)} {i : Nat}
  {c : Checker}

/-- What a directive does to a checker, by what it does to the registry and what it reports. -/
theorem step_directive {s : Session} (hc : s.checkers[i]? = some c) (hr : c.registry.Sound)
    (line : Int32) (text keyword : String) {u : Update}
    (hu : u = Directive.apply (s.directiveLocation c line) text keyword c.registry)
    {ds : List Diagnostic} (hds : ds = (reports u.signals).filter c.delivers) :
    ∃ events, s.step i (.directive line text keyword) =
      (s.withChecker i ({ c with registry := u.registry }.credit ds),
        ⟨⟨ds, events⟩, .ok .done⟩) := by
  have hresult : u.result = .ok () := by
    rw [hu]
    exact Directive.result_apply _ hr text keyword
  have hdelivered : ({ c with registry := u.registry }.receiveAll u.signals).2.delivered = ds := by
    rw [Checker.receiveAll_delivered, hds]
    rfl
  have hchecker := ({ c with registry := u.registry } : Checker).receiveAll_eq_credit u.signals
  rw [hdelivered] at hchecker
  refine ⟨({ c with registry := u.registry }.receiveAll u.signals).2.events, ?_⟩
  rw [step_eq_stepWith hc]
  show s.conclude i (c.update (Directive.apply _ text keyword)) = _
  rw [conclude, Checker.update, ← hu, hresult]
  refine Prod.ext (congrArg (s.withChecker i) hchecker) ?_
  rw [← hdelivered]
  rfl

/-- A checker that a session has come to is given a directive. The directive is handled as
`Directive.Handled` says; what is delivered are the reports, or, while warnings are suppressed, the
errors among them, and nothing else changes in the session but the registry, the sink and the
counter of the checker. As long as the checkers are fewer than the tags, the registry has a tag of
its own. -/
theorem directive_handled {s : Session} (hs : ((start sink configurations).run steps).1 = s)
    (hc : s.checkers[i]? = some c) (line : Int32) (text keyword : String) :
    ∃ r' made ds events,
      Directive.Handled (s.directiveLocation c line) text keyword c.registry r' made ∧
      ds = (if c.options.messages.suppressWarnings then errorsOf made else made) ∧
      s.step i (.directive line text keyword) =
        (s.withChecker i ({ c with registry := r' }.credit ds), ⟨⟨ds, events⟩, .ok .done⟩) ∧
      (configurations.length < 2 ^ 32 → c.registry.tag ≠ ExtensionId.catalogOwner) := by
  subst hs
  have hr : c.registry.Sound := Checker.Reachable.sound ⟨sink, configurations, steps, i, hc⟩
  obtain ⟨events, hstep⟩ := step_directive hc hr line text keyword rfl rfl
  exact ⟨_, _, _, events, Directive.handled_apply hr _ text keyword, c.filter_delivers _, hstep,
    fun hcount => tag_ne_catalogOwner hcount hc⟩

/-- A name that is not known and is required is one error, and is recorded all the same. -/
theorem directive_handled_unknown :
    ∃ r' d events,
      (start (.recording []) [{}]).step 0 (.directive 3 "GL_VENDOR_x" "require") =
        ((start (.recording []) [{}]).withChecker 0
            ({ Checker.start {} 1 (.recording []) with registry := r' }.credit [d]),
          ⟨⟨[d], events⟩, .ok .done⟩) ∧
      d.severity = .error ∧ d.loc = .atLine 3 ∧ d.extra = "GL_VENDOR_x" ∧
      r'.behaviorOf "GL_VENDOR_x" = .ok .require := by
  obtain ⟨r', made, ds, events, hhandled, hds, hstep, htag⟩ :=
    @directive_handled (.recording []) [{}] [] 0 _ _ rfl rfl 3 "GL_VENDOR_x" "require"
  have hnot : ¬Directive.Rejected "GL_VENDOR_x" "require" := by decide
  obtain ⟨d, rfl, -, hseverity, hextra⟩ := hhandled.unknown hnot (by decide) (by decide +kernel)
    (Or.inl (htag (by decide)))
  obtain ⟨b, hb, hrecorded⟩ := hhandled.recorded hnot (by decide)
  obtain rfl : Behavior.require = b := by
    cases b <;> first | rfl | exact absurd hb (by decide)
  have hplace := hhandled.place d (List.mem_singleton_self d)
  rw [hds] at hstep
  exact ⟨r', d, events, hstep, hseverity.mpr rfl, hplace.2.1, hextra (by decide +kernel), hrecorded⟩

/-! ## Directives that are not reported -/

/-- While warnings are suppressed, a partly supported extension is declared without a word. And in a
session with as many checkers as there are tags, a checker that has as many names as there are
places says nothing of a name that is not known. -/
theorem directive_unreported :
    (∃ c, (start (.recording []) [{ messages := { suppressWarnings := true } }]).checkers[0]? =
        some c ∧
      ¬Directive.Rejected "GL_ARB_gpu_shader5" "enable" ∧ PartlySupported "GL_ARB_gpu_shader5" ∧
      c.registry.behaviorOf "GL_ARB_gpu_shader5" = .ok .missing ∧
      ((start (.recording []) [{ messages := { suppressWarnings := true } }]).step 0
        (.directive 3 "GL_ARB_gpu_shader5" "enable")).2.emission.delivered = []) ∧
    ∃ s steps c, ((start (.recording []) (List.replicate (2 ^ 32) {})).run steps).1 = s ∧
      s.checkers[2 ^ 32 - 1]? = some c ∧
      ¬Directive.Rejected "GL_VENDOR_x" "warn" ∧ Extension.ofName? "GL_VENDOR_x" = none ∧
      c.options.messages.suppressWarnings = false ∧
      (s.step (2 ^ 32 - 1) (.directive 3 "GL_VENDOR_x" "warn")).2.emission.delivered = [] := by
  refine ⟨⟨_, rfl, by decide, by decide +kernel, by decide +kernel, by decide +kernel⟩, ?_⟩
  have hstart : (start (.recording []) (List.replicate (2 ^ 32) {})).checkers[2 ^ 32 - 1]? =
      some (Checker.start {} 0 (.recording [])) := by
    rw [getElem?_checkers_start, List.getElem?_replicate, if_pos (by decide)]
    rfl
  have hnew : "GL_VENDOR_x" ∉ (Registry.fresh 0).names := by decide +kernel
  obtain ⟨names, r, hr, hsound, htag, hsize, hnew⟩ :=
    exists_interned hstart (Registry.sound_fresh 0) (n := 2 ^ 32 + Extension.oesTexture3D.index)
      (by decide +kernel) hnew
  refine ⟨_, _, _, rfl, hr, by decide, by decide +kernel, rfl, ?_⟩
  obtain ⟨events, hstep⟩ := step_directive hr hsound 3 "GL_VENDOR_x" "warn" rfl rfl
  rw [hstep]
  have hid : (r.intern "GL_VENDOR_x").2 = Extension.oesTexture3D.id := by
    rw [Registry.intern_wrapped hsize hnew, htag]
    rfl
  have hreports : ∀ loc, reports (Directive.apply loc "GL_VENDOR_x" "warn" r).signals = [] := by
    intro loc
    rw [Directive.reports_apply (b := .warn) (by decide) (by decide), hid,
      Directive.reports_declare_known ((Registry.Change.intern r _).evolves.sound hsound)]
    rfl
  exact congrArg (List.filter _) (hreports _)

end Session

end ShaderCompat
