import ShaderCompat.Proofs.Extension.Refusal
import ShaderCompat.Proofs.Extension.Remarks

/-!
# What a declaration reports

A declaration for a known extension reports at most one thing, that this extension is partly
supported, for all that any extension implies is supported in full
(`Directive.reports_declare_known`). One for a name that is not known reports just that
(`Directive.reports_declare_unknown`). Seen from a partly supported extension, a declaration reports
it once if the extension is among those it reaches and has not been declared before, and not at all
otherwise (`Directive.countP_declare`).
-/

namespace ShaderCompat

/-! ## Keywords -/

namespace Directive

/-- The keywords that a directive may have. -/
def keywords : List String := ["require", "enable", "disable", "warn"]

end Directive

namespace Behavior

/-- A behavior is known by its label. -/
theorem ofLabel?_eq_some_iff {text : String} {b : Behavior} :
    ofLabel? text = some b ↔ b.label = text := by
  constructor
  · exact fun h => eq_of_beq (List.find?_some (p := fun b : Behavior => b.label == text) h)
  · rintro rfl
    cases b <;> decide

/-- A keyword is the label of a behavior other than `missing`. -/
theorem ofKeyword?_eq_some_iff {keyword : String} {b : Behavior} :
    ofKeyword? keyword = some b ↔ b.label = keyword ∧ b ≠ .missing := by
  rw [ofKeyword?, Option.filter_eq_some_iff, ofLabel?_eq_some_iff, decide_eq_true_eq]

/-- The `keywords` are the labels of the behaviors that a shader can write. -/
theorem mem_keywords_iff {keyword : String} :
    keyword ∈ Directive.keywords ↔ ∃ b, ofKeyword? keyword = some b := by
  constructor
  · intro h
    have hall : ∀ k ∈ Directive.keywords, (ofKeyword? k).isSome = true := by decide
    exact Option.isSome_iff_exists.mp (hall keyword h)
  · rintro ⟨b, hb⟩
    obtain ⟨rfl, hmissing⟩ := ofKeyword?_eq_some_iff.mp hb
    cases b with
    | missing => exact absurd rfl hmissing
    | _ => decide

/-- What is no behavior's keyword is none of the `keywords`. -/
theorem notMem_keywords {keyword : String} (h : ofKeyword? keyword = none) :
    keyword ∉ Directive.keywords := by
  rw [mem_keywords_iff, h]
  exact fun ⟨b, hb⟩ => Option.some_ne_none b hb.symm

end Behavior

/-! ## Support -/

/-- The name is that of a known extension that is partly supported. -/
def PartlySupported (text : String) : Prop :=
  ∃ e ∈ Extension.ofName? text, e.entry.support = .partly

instance (text : String) : Decidable (PartlySupported text) :=
  inferInstanceAs (Decidable (∃ e ∈ Extension.ofName? text, e.entry.support = .partly))

/-- For the name of an extension the catalog says so. -/
theorem Extension.partlySupported_name {e : Extension} :
    PartlySupported e.name ↔ e.entry.support = .partly := by
  rw [PartlySupported, e.ofName?_name]
  exact ⟨fun ⟨_, hf, hsupport⟩ => Option.some.inj hf ▸ hsupport, fun h => ⟨e, rfl, h⟩⟩

/-- Whatever an extension implies is supported in full. -/
theorem Extension.support_of_mem_tail {e f : Extension} (h : f ∈ e.family.tail) :
    f.entry.support = .full := by
  have hall : ∀ e ∈ Extension.all, ∀ f ∈ e.family.tail, f.entry.support = .full := by
    decide +kernel
  exact hall e e.mem_all f h

/-- The identity of an extension stands for it. -/
theorem ExtensionId.known?_id (e : Extension) : e.id.known? = some e := by
  rw [← (Registry.fresh 0).idAt_index e,
    Registry.known?_idAt _ (Nat.lt_trans e.index_lt (by decide))]
  exact Extension.ofIndex?_index e

namespace Diagnostic

/-- The warning that a known extension is partly supported. -/
def partly (loc : Location) (text : String) : Diagnostic :=
  ⟨.warning, .parse, loc, "extension is only partially supported:", "#extension", text⟩

/-- The report on a name that is not known, which is an error if it is required. -/
def unsupported (b : Behavior) (loc : Location) (text : String) : Diagnostic :=
  ⟨if b = .require then .error else .warning, .parse, loc, "extension not supported:", "#extension",
    text⟩

/-- Whether a report is a warning that the extension of the name `text` is partly supported. -/
def callsPartly (text : String) (d : Diagnostic) : Bool :=
  d.severity = .warning ∧ d.reason = "extension is only partially supported:" ∧ d.extra = text

/-- The warning calls the one name. -/
theorem callsPartly_partly (loc : Location) (text x : String) :
    (partly loc text).callsPartly x = decide (text = x) := by
  simp [callsPartly, partly]

/-- A report for another reason is no such warning. -/
theorem callsPartly_of_reason {d : Diagnostic} (text : String)
    (h : d.reason ≠ "extension is only partially supported:") : d.callsPartly text = false := by
  simp [callsPartly, h]

end Diagnostic

/-- Among reports for other reasons there is no such warning. -/
theorem countP_callsPartly_eq_zero {ds : List Diagnostic} (text : String)
    (h : ∀ d ∈ ds, d.reason ≠ "extension is only partially supported:") :
    ds.countP (Diagnostic.callsPartly text) = 0 :=
  List.countP_eq_zero.mpr fun d hd =>
    Bool.eq_false_iff.mp (Diagnostic.callsPartly_of_reason text (h d hd))

namespace Directive

variable {r : Registry} {loc : Location} {id : ExtensionId} {b : Behavior} {text : String}

/-! ## One extension -/

/-- A partly supported extension is remarked on when it is declared for the first time. -/
theorem remarks_known (e : Extension) (slot : Slot) :
    remarks loc e.id slot b =
      if e.entry.support = .partly ∧ slot.behavior = .missing then
        [.report (.partly loc slot.name)] else [] := by
  have hdeclared : ¬slot.behavior.isDeclared = true ↔ slot.behavior = .missing := by
    rw [Behavior.isDeclared_iff, not_not]
  rw [remarks, ExtensionId.known?_id]
  simp only [hdeclared]
  rfl

/-- An identity that stands for no extension is remarked on whenever it is declared. -/
theorem remarks_unknown (h : id.known? = none) (slot : Slot) :
    remarks loc id slot b = [.report (.unsupported b loc slot.name)] := by
  rw [remarks, h]
  rfl

/-! ## Declarations -/

/-- All that is said of declarations in a row is said of one of them (`remarks`). -/
theorem exists_remarks_of_mem {ids : List ExtensionId} {s : Signal}
    (h : s ∈ (Update.each (declareOne loc b) ids r).signals) :
    ∃ id ∈ ids, ∃ slot, s ∈ remarks loc id slot b := by
  induction ids generalizing r with
  | nil => exact absurd h List.not_mem_nil
  -- a refusal ends the row, and what was said before it stays
  | cons id ids ih =>
    rw [Update.each, Update.andThen, declareOne] at h
    cases hslot : r.slot id with
    | error e =>
      simp only [hslot] at h
      exact absurd h List.not_mem_nil
    | ok slot =>
      cases hset : r.set id b with
      | error e =>
        simp only [hslot, hset] at h
        exact absurd h List.not_mem_nil
      | ok r' =>
        simp only [hslot, hset] at h
        rcases List.mem_append.mp h with hhead | hrest
        · exact ⟨id, List.mem_cons_self, slot, hhead⟩
        · obtain ⟨id', hid', hslot'⟩ := ih hrest
          exact ⟨id', List.mem_cons_of_mem id hid', hslot'⟩

/-- What is said of declarations in a row is said of the first, and then of the others. -/
theorem signals_each_cons (hr : r.names.Nodup) (h : r.name id = .ok text) (ids : List ExtensionId) :
    (Update.each (declareOne loc b) (id :: ids) r).signals =
      remarks loc id ⟨text, r.recorded text⟩ b ++
        (Update.each (declareOne loc b) ids (declareOne loc b id r).registry).signals := by
  rw [Update.each, Update.andThen, (Registry.declareOne_sets hr h loc b).1,
    ← signals_declareOne loc b hr h]

/-- A declaration for a known extension reports that it is `partly` supported, if it is and has not
been declared before. -/
theorem reports_declare_known (hr : r.Sound) (e : Extension) :
    reports (declare loc e.id b r).signals =
      if e.entry.support = .partly ∧ r.recorded e.name = .missing then [.partly loc e.name]
      else [] := by
  have hfamily : e.id.family = e.id :: e.family.tail.map Extension.id := by
    rw [ExtensionId.family, ExtensionId.known?_id]
    rfl
  -- what it implies is supported in full, so nothing is said of that
  have htail : (Update.each (declareOne loc b) (e.family.tail.map Extension.id)
      (declareOne loc b e.id r).registry).signals = [] := by
    refine List.eq_nil_iff_forall_not_mem.mpr fun s hs => ?_
    obtain ⟨id, hid, slot, hslot⟩ := exists_remarks_of_mem hs
    obtain ⟨f, hf, rfl⟩ := List.mem_map.mp hid
    rw [remarks_known, Extension.support_of_mem_tail hf, if_neg (by simp)] at hslot
    exact absurd hslot List.not_mem_nil
  rw [declare, hfamily, signals_each_cons hr.nodup (hr.name_id e), htail, List.append_nil,
    remarks_known]
  split <;> rfl

/-- So whatever such a declaration reports is that. -/
theorem eq_partly_of_mem_reports (hr : r.Sound) {e : Extension} {d : Diagnostic}
    (h : d ∈ reports (declare loc e.id b r).signals) : d = .partly loc e.name := by
  rw [reports_declare_known hr] at h
  split at h
  · exact List.mem_singleton.mp h
  · exact absurd h List.not_mem_nil

/-- A declaration for a name that is not known reports just that (`unsupported`). -/
theorem reports_declare_unknown (hr : r.names.Nodup) (hid : id.known? = none)
    (hname : r.name id = .ok text) :
    reports (declare loc id b r).signals = [.unsupported b loc text] := by
  have hfamily : id.family = [id] := by rw [ExtensionId.family, hid]
  rw [declare, hfamily, signals_each_cons hr hname, remarks_unknown hid]
  rfl

/-- What a directive reports, if it is not about all extensions, is what the declaration does. -/
theorem reports_apply {keyword : String} (hkeyword : Behavior.ofKeyword? keyword = some b)
    (htext : text ≠ everyExtension) :
    reports (apply loc text keyword r).signals =
      reports (declare loc (r.intern text).2 b (r.intern text).1).signals := by
  rw [apply_of_ne hkeyword htext]
  show reports (_ ++ _) = _
  rw [reports_append, reports_map_log, List.nil_append]

/-! ## Counting -/

/-- What is said of an extension by its name, as seen from the name `x`. -/
theorem countP_remarks (h : id.known? = Extension.ofName? text) (old : Behavior) (x : String) :
    (reports (remarks loc id ⟨text, old⟩ b)).countP (Diagnostic.callsPartly x) =
      if text = x ∧ PartlySupported x ∧ old = .missing then 1 else 0 := by
  -- an unknown name is reported for another reason
  cases hname : Extension.ofName? text with
  | none =>
    have hnot : ¬(text = x ∧ PartlySupported x ∧ old = .missing) := by
      rintro ⟨rfl, ⟨e, he, -⟩, -⟩
      rw [hname] at he
      exact absurd he (Option.some_ne_none e).symm
    rw [remarks_unknown (h.trans hname), if_neg hnot]
    refine countP_callsPartly_eq_zero x fun d hd => ?_
    obtain rfl := List.mem_singleton.mp hd
    exact show ("extension not supported:" : String) ≠ _ by decide
  | some e =>
    obtain rfl : e.name = text := Extension.ofName?_eq_some_iff.mp hname
    rw [Extension.eq_id_of_known? (h.trans hname), remarks_known]
    by_cases hsays : e.entry.support = .partly ∧ old = .missing
    · rw [if_pos hsays]
      show [Diagnostic.partly loc e.name].countP _ = _
      rw [List.countP_singleton, Diagnostic.callsPartly_partly]
      refine if_congr ?_ rfl rfl
      rw [decide_eq_true_eq]
      refine ⟨?_, And.left⟩
      rintro rfl
      exact ⟨rfl, Extension.partlySupported_name.mpr hsays.1, hsays.2⟩
    · have hnot : ¬(e.name = x ∧ PartlySupported x ∧ old = .missing) := by
        rintro ⟨rfl, hpartly, hold⟩
        exact hsays ⟨Extension.partlySupported_name.mp hpartly, hold⟩
      rw [if_neg hsays, if_neg hnot]
      rfl

/-- However often a name stands among the extensions declared one after another, it is reported
once, for then it is declared. -/
theorem countP_each (hr : r.Sound) (hsize : r.size ≤ 2 ^ 32) (hb : b ≠ .missing)
    {ids : List ExtensionId} {texts : List String}
    (h : List.Forall₂ (fun id x => r.find? x = some id) ids texts) (x : String) :
    (reports (Update.each (declareOne loc b) ids r).signals).countP (Diagnostic.callsPartly x) =
      if x ∈ texts ∧ PartlySupported x ∧ r.recorded x = .missing then 1 else 0 := by
  induction ids generalizing r texts with
  | nil =>
    rw [List.forall₂_nil_left_iff.mp h]
    exact (if_neg fun hx => absurd hx.1 List.not_mem_nil).symm
  | cons id ids ih =>
    obtain ⟨text, texts, hfind, hrest, rfl⟩ := List.forall₂_cons_left_iff.mp h
    have hname : r.name id = .ok text := Registry.name_of_find? hsize hfind
    obtain ⟨-, hsets⟩ := Registry.declareOne_sets hr.nodup hname loc b
    have hcount := ih (hsets.evolves.sound hr) (by rw [Registry.size, hsets.names]; exact hsize)
      (hrest.imp fun i y hy => (hsets.find? y).trans hy)
    rw [hsets.recorded] at hcount
    rw [signals_each_cons hr.nodup hname, reports_append, List.countP_append, hcount,
      countP_remarks (hr.known?_of_find? hsize hfind)]
    by_cases hx : x = text
    · -- from here on the name is declared
      have hdone : ¬(x ∈ texts ∧ PartlySupported x ∧
          (if x ∈ [text] then b else r.recorded x) = .missing) := by
        rw [if_pos (List.mem_singleton.mpr hx)]
        exact fun hsays => hb hsays.2.2
      rw [if_neg hdone, Nat.add_zero]
      refine if_congr ?_ rfl rfl
      rw [hx]
      exact ⟨fun hsays => ⟨List.mem_cons_self, hsays.2⟩, fun hsays => ⟨rfl, hsays.2⟩⟩
    · rw [if_neg fun hsays => hx hsays.1.symm, Nat.zero_add,
        if_neg fun hmem => hx (List.mem_singleton.mp hmem)]
      refine if_congr (and_congr_left' ?_) rfl rfl
      rw [List.mem_cons]
      exact ⟨Or.inr, fun hmem => hmem.resolve_left hx⟩

/-- A declaration for a name reports a partly supported extension once, if the extension `Follows`
from the name and has not been declared before. -/
theorem countP_declare (hr : r.Sound) (hsize : r.size ≤ 2 ^ 32) (hb : b ≠ .missing)
    (h : r.find? text = some id) (x : String) :
    (reports (declare loc id b r).signals).countP (Diagnostic.callsPartly x) =
      if Follows text x ∧ PartlySupported x ∧ r.recorded x = .missing then 1 else 0 := by
  rw [declare, countP_each hr hsize hb (hr.family_of_find? hsize h)]
  exact if_congr (and_congr_left' mem_familyOf_iff) rfl rfl

/-- So does a directive that is accepted, and is not about all extensions; no other directive does.
-/
theorem countP_apply (hr : r.Sound) {keyword : String}
    (hsize : (apply loc text keyword r).registry.size ≤ 2 ^ 32) (x : String) :
    (reports (apply loc text keyword r).signals).countP (Diagnostic.callsPartly x) =
      if (keyword ∈ keywords ∧ text ≠ everyExtension) ∧ Follows text x ∧ PartlySupported x ∧
        r.recorded x = .missing then 1 else 0 := by
  -- three directives report something else, or nothing: one without a keyword, and two on all
  cases hkeyword : Behavior.ofKeyword? keyword with
  | none =>
    rw [apply, hkeyword, if_neg fun h => Behavior.notMem_keywords hkeyword h.1.1]
    refine countP_callsPartly_eq_zero x fun d hd => ?_
    obtain rfl := List.mem_singleton.mp hd
    exact show ("behavior not supported:" : String) ≠ _ by decide
  | some b =>
    have hmem : keyword ∈ keywords := Behavior.mem_keywords_iff.mpr ⟨b, hkeyword⟩
    obtain ⟨-, hb⟩ := Behavior.ofKeyword?_eq_some_iff.mp hkeyword
    by_cases htext : text = everyExtension
    · rw [apply, hkeyword, if_neg fun h => h.1.2 htext]
      show (reports (if text = everyExtension then _ else _ : Update).signals).countP _ = 0
      rw [if_pos htext]
      cases b.isTurnedOn with
      | false => rfl
      | true =>
        refine countP_callsPartly_eq_zero x fun d hd => ?_
        obtain rfl := List.mem_singleton.mp hd
        exact show ("extension 'all' cannot have 'require' or 'enable' behavior" : String) ≠ _ by
          decide
    · have hstep : r.Evolves (r.intern text).1 := (Registry.Change.intern r text).evolves
      have hdeclare := Registry.evolves_declare (r.intern text).1 loc (r.intern text).2 b
      rw [Registry.registry_directive_of_ne hkeyword htext] at hsize
      rw [reports_apply hkeyword htext, countP_declare (hstep.sound hr)
        (Nat.le_trans hdeclare.size_le hsize) hb (hr.find?_intern text),
        Registry.recorded_intern hr.nodup]
      exact if_congr (and_iff_right ⟨hmem, htext⟩).symm rfl rfl

end Directive

end ShaderCompat
