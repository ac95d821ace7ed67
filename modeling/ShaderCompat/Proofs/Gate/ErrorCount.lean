import ShaderCompat.Proofs.Gate.Refusal
import ShaderCompat.Proofs.Gate.Relaxed

/-!
# How many errors a check reports

A gate reports one error at most, and `Check.raises` says when: from the configuration and the
behaviors of the extensions that the gate lists, whatever else the registry holds. A check whose
extensions are all served runs to its end, so it reports as many errors as there are gates in it
that raise one (`Check.errorCount_run`).
-/

namespace ShaderCompat

namespace Outcome

/-- How many errors a computation reports, by `errorsOf`. -/
def errorCount {α : Type} (x : Outcome α) : Nat := (errorsOf (reports x.signals)).length

@[simp] theorem errorCount_pure {α : Type} (a : α) : (pure a : Outcome α).errorCount = 0 := rfl

@[simp] theorem errorCount_log (event : Event) : (log event).errorCount = 0 := rfl

/-- A lookup reports nothing: `liftM` has no signals. -/
@[simp] theorem errorCount_liftM {α : Type} (x : Except Refusal α) :
    (liftM x : Outcome α).errorCount = 0 := rfl

/-- A report is an error or it is not. -/
@[simp] theorem errorCount_report (d : Diagnostic) : (report d).errorCount = d.isError.toNat := by
  show (errorsOf [d]).length = _
  rw [errorsOf, List.filter_singleton]
  cases d.isError <;> rfl

/-- The errors of `x` and of what comes after it add up. -/
theorem errorCount_bind_of_ok {α β : Type} {x : Outcome α} {a : α} (h : x.result = .ok a)
    (f : α → Outcome β) : (x >>= f).errorCount = x.errorCount + (f a).errorCount := by
  simp only [errorCount, bind_of_ok h, reports_append, errorsOf_append, List.length_append]

/-- A computation that `demote` does not change reports no error. -/
theorem errorCount_of_demote {α : Type} {x : Outcome α} (h : x.demote = x) : x.errorCount = 0 := by
  rw [errorCount, errorsOf_of_demote h]
  rfl

end Outcome

/-! ## Behaviors of a list of extensions -/

namespace Registry

variable {r : Registry} {p : Behavior → Bool} {ids : List ExtensionId} {bs : List Behavior}

/-- A served identity has, in the sense of `has`, the behavior that it has. -/
theorem has_of_behavior {id : ExtensionId} {b : Behavior} (h : r.behavior id = .ok b) :
    r.has p id = p b := by
  rw [has, h]

/-- Served identities have behaviors. -/
theorem exists_behaviors_of_served (h : ∀ id ∈ ids, r.refusal? id = none) :
    ∃ bs, ids.mapM r.behavior = .ok bs := by
  cases hbs : ids.mapM r.behavior with
  | ok bs => exact ⟨bs, rfl⟩
  | error e =>
    rw [mapM_behavior_eq_error_iff, List.findSome?_eq_none_iff.mpr h] at hbs
    exact absurd hbs (Option.some_ne_none e).symm

/-- Whether one of the behaviors is of the kind `p` may be told from the identities. -/
theorem any_behaviors (h : ids.mapM r.behavior = .ok bs) : bs.any p = ids.any (r.has p) := by
  have hbs := mapM_eq_ok_iff.mp h
  clear h
  induction hbs with
  | nil => rfl
  | cons hb _ ih => rw [List.any_cons, List.any_cons, ih, has_of_behavior hb]

/-- A list whose identities are all served is looked through by `anyOf` without a refusal. -/
theorem anyOf_of_served (h : ∀ id ∈ ids, r.refusal? id = none) :
    r.anyOf p ids = .ok (ids.any (r.has p)) := by
  induction ids with
  | nil => rfl
  | cons id ids ih =>
    obtain ⟨hid, hids⟩ := List.forall_mem_cons.mp h
    obtain ⟨s, -, hb⟩ := exists_slot_of_served hid
    rw [anyOf_cons_of_ok hb, ih hids, List.any_cons, has_of_behavior hb]
    cases p s.behavior <;> rfl

/-- An extension of either of two kinds. -/
theorem any_has_or (q : Behavior → Bool) :
    ids.any (r.has fun b => p b || q b) = (ids.any (r.has p) || ids.any (r.has q)) := by
  have hor (id : ExtensionId) : r.has (fun b => p b || q b) id = (r.has p id || r.has q id) := by
    unfold has
    cases r.behavior id <;> rfl
  rw [Bool.eq_iff_iff]
  simp only [List.any_eq_true, Bool.or_eq_true, hor, and_or_left, exists_or]

end Registry

/-! ## Gates -/

/-- Whether an extension gate passes on account of an extension with a behavior: it is on, or
`Gate.tolerates` it. -/
def Options.lets (o : Options) (b : Behavior) : Bool := b.isTurnedOn || Gate.tolerates o b

namespace Gate

open Outcome

variable {o : Options} {r : Registry} {loc : Location} {feature : String}

/-- A mismatch is an error unless `relaxedErrors` is set. -/
theorem errorCount_mismatch (reason extra : String) :
    (mismatch o loc reason feature extra).errorCount =
      (decide (¬o.messages.relaxedErrors)).toNat := by
  rw [mismatch, errorCount_report, Diagnostic.isError, Options.mismatch]
  by_cases hrelaxed : o.messages.relaxedErrors = true
  · rw [if_pos hrelaxed, decide_eq_false fun hstrict => hstrict hrelaxed]
  · rw [if_neg hrelaxed, decide_eq_true hrelaxed]

/-- Names are looked up without a report. -/
theorem errorCount_names (ids : List ExtensionId) :
    (ids.mapM fun id => (liftM (r.name id) : Outcome String)).errorCount = 0 :=
  errorCount_of_demote (demote_mapM (fun id => demote_liftM (r.name id)) ids)

/-- The profile gate reports an error outside its profiles. -/
theorem errorCount_profile (profiles : ProfileSet) :
    (profile o loc profiles feature).errorCount =
      (decide (o.profile ∉ profiles ∧ ¬o.messages.relaxedErrors)).toNat := by
  by_cases hp : o.profile ∉ profiles
  · have hraises : (o.profile ∉ profiles ∧ ¬o.messages.relaxedErrors) ↔
        ¬o.messages.relaxedErrors := and_iff_right hp
    rw [profile, if_pos hp, errorCount_bind_of_ok (x := log _) rfl, errorCount_log, Nat.zero_add,
      errorCount_mismatch, decide_eq_decide.mpr hraises]
  · rw [profile, if_neg hp, decide_eq_false fun h => hp h.1]
    rfl

/-- The version gate reports an error in its profiles, where neither the version nor an extension
will do. -/
theorem errorCount_version {ids : List ExtensionId} (h : ∀ id ∈ ids, r.refusal? id = none)
    (profiles : ProfileSet) (minimum : Int32) :
    (version o r loc profiles minimum ids feature).errorCount =
      (decide (o.profile ∈ profiles ∧ ¬(0 < minimum ∧ minimum ≤ o.version) ∧
        ¬ids.any (r.has Behavior.isUsable) ∧ ¬o.messages.relaxedErrors)).toNat := by
  obtain ⟨bs, hbs⟩ := Registry.exists_behaviors_of_served h
  -- the extensions are read first, and give warnings at most
  have hread : (ids.mapM (consult r loc feature)).result = .ok bs :=
    (result_mapM_consult ids).trans hbs
  have hquiet : (ids.mapM (consult r loc feature)).errorCount = 0 :=
    errorCount_of_demote (demote_mapM (demote_consult r loc feature) ids)
  obtain ⟨texts, htexts⟩ := exists_names hbs
  rw [version, ← Registry.any_behaviors hbs]
  by_cases hp : o.profile ∈ profiles
  · rw [if_pos hp, errorCount_bind_of_ok hread, hquiet, Nat.zero_add]
    by_cases hrefused : ¬(0 < minimum ∧ minimum ≤ o.version) ∧ ¬bs.any Behavior.isUsable = true
    · have hraises : (o.profile ∈ profiles ∧ ¬(0 < minimum ∧ minimum ≤ o.version) ∧
          ¬bs.any Behavior.isUsable = true ∧ ¬o.messages.relaxedErrors) ↔
            ¬o.messages.relaxedErrors :=
        ⟨fun hall => hall.2.2.2, fun hstrict => ⟨hp, hrefused.1, hrefused.2, hstrict⟩⟩
      rw [if_pos hrefused, errorCount_bind_of_ok (x := log _) rfl, errorCount_log, Nat.zero_add,
        errorCount_bind_of_ok htexts, errorCount_names, Nat.zero_add, errorCount_mismatch,
        decide_eq_decide.mpr hraises]
    · rw [if_neg hrefused, decide_eq_false fun hall => hrefused ⟨hall.2.1, hall.2.2.1⟩]
      rfl
  · rw [if_neg hp, decide_eq_false fun hall => hp hall.1]
    rfl

/-- The extension gate reports an error if none of its extensions lets the feature pass. -/
theorem errorCount_extensions {ids : List ExtensionId} (h : ∀ id ∈ ids, r.refusal? id = none)
    (channel : Channel) :
    (extensions o r channel loc ids feature).errorCount = (!ids.any (r.has o.lets)).toNat := by
  obtain ⟨bs, hbs⟩ := Registry.exists_behaviors_of_served h
  have hon : r.anyTurnedOn ids = .ok (ids.any (r.has Behavior.isTurnedOn)) :=
    (r.anyTurnedOn_eq_anyOf ids).trans (Registry.anyOf_of_served h)
  have hlets : ids.any (r.has o.lets) =
      (ids.any (r.has Behavior.isTurnedOn) || ids.any (r.has (tolerates o))) :=
    Registry.any_has_or (tolerates o)
  rw [hlets]
  -- an extension that is on ends the gate at once; else each is tolerated or not
  cases honHas : ids.any (r.has Behavior.isTurnedOn) with
  | true =>
    rw [extensions_of_on (hon.trans (congrArg Except.ok honHas))]
    rfl
  | false =>
    have hread : (ids.mapM (tolerate o r channel loc feature)).result =
        .ok (bs.map (tolerates o)) := by
      rw [result_mapM_tolerate, hbs]
      rfl
    have hquiet : (ids.mapM (tolerate o r channel loc feature)).errorCount = 0 :=
      errorCount_of_demote (demote_mapM demote_tolerate ids)
    have hany : (bs.map (tolerates o)).any id = ids.any (r.has (tolerates o)) := by
      rw [List.any_map, ← Registry.any_behaviors hbs]
      rfl
    rw [extensions_of_off (hon.trans (congrArg Except.ok honHas)), refuse,
      errorCount_bind_of_ok hread, hquiet, Nat.zero_add, hany]
    cases ids.any (r.has (tolerates o)) with
    | true => rfl
    | false =>
      obtain ⟨texts, htexts⟩ := exists_names hbs
      show (log _ >>= fun _ => _ >>= fun names => _ : Outcome Unit).errorCount = 1
      rw [errorCount_bind_of_ok (x := log _) rfl, errorCount_bind_of_ok htexts, errorCount_names]
      rfl

end Gate

/-! ## Checks -/

namespace Check

/-- Whether a gate refuses the feature it is asked about, under a configuration and a registry. A
scalar check is no gate, and has its own in `parts`. -/
def refuses (o : Options) (r : Registry) : Check ExtensionId → Bool
  | .profile profiles => decide (o.profile ∉ profiles)
  | .version profiles minimum ids =>
    decide (o.profile ∈ profiles ∧ ¬(0 < minimum ∧ minimum ≤ o.version) ∧
      ¬ids.any (r.has Behavior.isUsable))
  | .stage stages => decide (o.stage ∉ stages)
  | .deprecated profiles since | .removed profiles since =>
    decide (o.profile ∈ profiles ∧ since ≤ o.version)
  | .unimplemented => true
  | .withoutSpirv => o.target.generatesSpirv
  | .withoutVulkan => o.target.targetsVulkan
  | .vulkanOnly => !o.target.targetsVulkan
  | .spirvOnly => !o.target.generatesSpirv
  | .extensions _ ids => !ids.any (r.has o.lets)
  | .fullInteger | .double | .int64 _ | .int16 _ | .float16 _ => false

/-- The severity of the report with which a gate refuses a feature. Only two of the gates make it a
warning: under relaxed errors, or before a deprecation counts. -/
def severity {ι : Type} (o : Options) : Check ι → Severity
  | .profile _ | .version .. => o.mismatch
  | .deprecated .. => if o.forwardCompatible then .error else .warning
  | _ => .error

/-- Whether a gate reports an error: it `refuses` the feature, and does so with an error. -/
def raises (o : Options) (r : Registry) (k : Check ExtensionId) : Bool :=
  k.refuses o r && decide (k.severity o = .error)

variable {o : Options} {r : Registry} {loc : Location}

/-- A mismatch is an error unless errors are relaxed. -/
theorem mismatch_eq_error_iff : o.mismatch = .error ↔ ¬o.messages.relaxedErrors = true := by
  rw [Options.mismatch]
  cases o.messages.relaxedErrors <;> decide

/-- `raises` for the profile gate. -/
theorem raises_profile (profiles : ProfileSet) :
    (Check.profile profiles).raises o r =
      decide (o.profile ∉ profiles ∧ ¬o.messages.relaxedErrors) := by
  rw [Bool.decide_and, ← decide_eq_decide.mpr mismatch_eq_error_iff]
  rfl

/-- `raises` for the version gate. -/
theorem raises_version (profiles : ProfileSet) (minimum : Int32) (ids : List ExtensionId) :
    (Check.version profiles minimum ids).raises o r =
      decide (o.profile ∈ profiles ∧ ¬(0 < minimum ∧ minimum ≤ o.version) ∧
        ¬ids.any (r.has Behavior.isUsable) ∧ ¬o.messages.relaxedErrors) := by
  show (decide _ && decide (o.mismatch = .error)) = _
  rw [← Bool.decide_and, decide_eq_decide, mismatch_eq_error_iff, and_assoc, and_assoc]

/-- `raises` for the extension gate, whose refusal is an error in any case. -/
theorem raises_extensions (channel : Channel) (ids : List ExtensionId) :
    (Check.extensions channel ids).raises o r = !ids.any (r.has o.lets) := Bool.and_true _

/-- A gate that is refused nothing reports one error, or none, as `raises` says. -/
theorem errorCount_of_isGate {k : Check ExtensionId} (hk : k.isGate = true)
    (h : ∀ id ∈ k.ids, r.refusal? id = none) (feature : String) :
    (k.run o r loc feature).errorCount = (k.raises o r).toNat := by
  -- the three gates that can warn have been counted above; the others report or do nothing
  cases k with
  | profile profiles => rw [run, Gate.errorCount_profile, raises_profile]
  | version profiles minimum ids =>
    rw [raises_version]
    exact Gate.errorCount_version h profiles minimum
  | extensions channel ids =>
    rw [raises_extensions]
    exact Gate.errorCount_extensions h channel
  | stage stages =>
    rw [run, raises, refuses, Gate.stage]
    by_cases hs : o.stage ∉ stages
    · rw [if_pos hs, decide_eq_true hs]
      rfl
    · rw [if_neg hs, decide_eq_false hs]
      rfl
  | deprecated profiles since =>
    rw [run, raises, refuses, severity, Gate.deprecated]
    by_cases hsince : o.profile ∈ profiles ∧ since ≤ o.version
    · rw [if_pos hsince, decide_eq_true hsince]
      cases o.forwardCompatible <;> rfl
    · rw [if_neg hsince, decide_eq_false hsince]
      rfl
  | removed profiles since =>
    rw [run, raises, refuses, Gate.removed]
    by_cases hsince : o.profile ∈ profiles ∧ since ≤ o.version
    · rw [if_pos hsince, decide_eq_true hsince]
      rfl
    · rw [if_neg hsince, decide_eq_false hsince]
      rfl
  | unimplemented => rfl
  | withoutSpirv | spirvOnly =>
    simp only [run, raises, refuses, Gate.withoutSpirv, Gate.spirvOnly]
    cases o.target.generatesSpirv <;> rfl
  | withoutVulkan | vulkanOnly =>
    simp only [run, raises, refuses, Gate.withoutVulkan, Gate.vulkanOnly]
    cases o.target.targetsVulkan <;> rfl
  | fullInteger | double | int64 | int16 | float16 => exact absurd hk Bool.false_ne_true

/-- A gate that is refused nothing runs to its end. -/
theorem result_of_served {k : Check ExtensionId} (hk : k.isGate = true)
    (h : ∀ id ∈ k.ids, r.refusal? id = none) (feature : String) :
    (k.run o r loc feature).result = .ok () := by
  cases hresult : (k.run o r loc feature).result with
  | ok _ => rfl
  | error e =>
    rw [run_eq_error_iff_of_isGate hk, refusal?_of_served h] at hresult
    exact absurd hresult (Option.some_ne_none e).symm

/-- Gates that are refused nothing report an error each, or none. -/
theorem errorCount_inTurn {parts : List (Check ExtensionId × String)}
    (h : ∀ part ∈ parts, part.1.isGate = true ∧ ∀ id ∈ part.1.ids, r.refusal? id = none) :
    (inTurn o r loc parts).errorCount = parts.countP fun part => part.1.raises o r := by
  induction parts with
  | nil => rfl
  | cons part rest ih =>
    obtain ⟨k, feature⟩ := part
    obtain ⟨⟨hk, hserved⟩, hrest⟩ := List.forall_mem_cons.mp h
    rw [inTurn, Outcome.errorCount_bind_of_ok (result_of_served hk hserved feature),
      errorCount_of_isGate hk hserved, ih hrest, List.countP_cons, Nat.add_comm]
    cases k.raises o r <;> rfl

/-- The gates of a check are refused nothing if the check is not: those of a scalar check list
extensions of the catalog. -/
theorem served_of_mem_parts (hcatalog : ∀ e : Extension, r.refusal? e.id = none)
    {k : Check ExtensionId} (h : ∀ id ∈ k.ids, r.refusal? id = none) {feature : String}
    {part : Check ExtensionId × String} (hpart : part ∈ k.parts feature) :
    ∀ id ∈ part.1.ids, r.refusal? id = none := by
  intro id hid
  cases hk : k.isGate with
  | true =>
    obtain rfl : part = (k, feature) := by
      cases k with
      | fullInteger | double | int64 | int16 | float16 => exact absurd hk Bool.false_ne_true
      | _ => exact List.mem_singleton.mp hpart
    exact h id hid
  | false =>
    obtain ⟨e, rfl⟩ := exists_eq_id_of_mem_parts hk hpart hid
    exact hcatalog e

/-- A check that is refused nothing reports an error for each gate in it that `raises` one. -/
theorem errorCount_run (hcatalog : ∀ e : Extension, r.refusal? e.id = none) {k : Check ExtensionId}
    (h : ∀ id ∈ k.ids, r.refusal? id = none) (feature : String) :
    (k.run o r loc feature).errorCount =
      (k.parts feature).countP fun part => part.1.raises o r := by
  rw [run_eq_inTurn]
  exact errorCount_inTurn fun part hpart =>
    ⟨isGate_of_mem_parts hpart, served_of_mem_parts hcatalog h hpart⟩

end Check

/-- The counter of a checker grows by the `errorCount` of the check. -/
theorem Checker.errors_check (c : Checker) (loc : Location) (feature : String)
    (k : Check ExtensionId) :
    (c.check loc feature k).1.errors =
      c.errors + (k.run c.options c.registry loc feature).errorCount :=
  congrArg Checker.errors (c.receiveAll_checker _)

end ShaderCompat
