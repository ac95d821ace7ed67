import ShaderCompat.Proofs.Gate.Congruence
import ShaderCompat.Proofs.Gate.Extension

/-!
# Refused checks

A check is refused an identity where a gate in it reads one that the registry does not serve. A
version gate reads every extension it lists, and only in the profiles it is about; an extension gate
reads up to the first that is on. `Check.refusal?` says so, and a check ends as it says
(`Check.run_eq_error_iff`). What a refused check has given off are the warnings of a version gate on
the extensions it had read (`Check.signals_of_refused`).
-/

namespace ShaderCompat

variable {o : Options} {r : Registry} {loc : Location} {feature : String}

namespace Gate

variable {ids : List ExtensionId} {e : Refusal}

/-! ## Version gates -/

/-- What a version gate reports of an extension that it reads. -/
def useReport? (r : Registry) (loc : Location) (feature : String) (id : ExtensionId) :
    Option Diagnostic :=
  match r.behavior id, r.name id with
  | .ok .warn, .ok name =>
    some ⟨.warning, .parse, loc, "extension warning", feature, usage name feature⟩
  | _, _ => none

/-- What a version gate reports of the extensions it reads before it is refused one. -/
def useReports (r : Registry) (loc : Location) (feature : String) (ids : List ExtensionId) :
    List Diagnostic :=
  (ids.takeWhile fun id => (r.refusal? id).isNone).filterMap (useReport? r loc feature)

/-- Uses are warnings. -/
theorem isError_of_mem_useReports {d : Diagnostic} (h : d ∈ useReports r loc feature ids) :
    d.isError = false := by
  obtain ⟨id, -, hid⟩ := List.mem_filterMap.mp h
  unfold useReport? at hid
  split at hid
  · rw [← Option.some.inj hid]
    rfl
  · exact absurd hid (Option.some_ne_none _).symm

/-- `consult` finds the behavior of an extension. -/
theorem result_consult (id : ExtensionId) :
    (consult r loc feature id).result = r.behavior id := by
  rw [consult]
  cases hb : r.behavior id with
  | error e => rfl
  | ok b =>
    obtain ⟨text, htext⟩ := Registry.exists_name_of_behavior hb
    rw [htext]
    cases b <;> rfl

/-- `consult` reports the use of an extension that is to warn. -/
theorem signals_consult (id : ExtensionId) :
    (consult r loc feature id).signals = (useReport? r loc feature id).toList.map .report := by
  rw [consult, useReport?]
  cases hb : r.behavior id with
  | error e => rfl
  | ok b =>
    obtain ⟨text, htext⟩ := Registry.exists_name_of_behavior hb
    rw [htext]
    cases b <;> rfl

/-- Going through a list with `consult` finds the behaviors, up to the first refused identity. -/
theorem result_mapM_consult (ids : List ExtensionId) :
    (ids.mapM (consult r loc feature)).result = ids.mapM r.behavior := by
  rw [Outcome.result_mapM, funext result_consult]

/-- Extensions are read, and reported, up to the first refused identity (`useReports`). -/
theorem signals_mapM_consult_of_refused (h : ids.findSome? r.refusal? = some e) :
    (ids.mapM (consult r loc feature)).signals = (useReports r loc feature ids).map .report := by
  induction ids with
  | nil => exact absurd h (Option.some_ne_none _).symm
  | cons id ids ih =>
    rw [List.findSome?_cons] at h
    rw [List.mapM_cons, useReports, List.takeWhile_cons]
    have hresult : (consult r loc feature id).result = r.behavior id := result_consult id
    -- the refused identity is this one, or stands behind it
    cases hid : r.refusal? id with
    | some e' =>
      have hb : r.behavior id = .error e' := Registry.behavior_eq_error_iff.mpr hid
      rw [Outcome.bind_of_error (hresult.trans hb), signals_consult, useReport?, hb]
      rfl
    | none =>
      rw [hid] at h
      obtain ⟨s, -, hb⟩ := Registry.exists_slot_of_served hid
      rw [Outcome.bind_of_ok (hresult.trans hb),
        Outcome.bind_of_error ((result_mapM_consult ids).trans
          (Registry.mapM_behavior_eq_error_iff.mpr h)), ih h, signals_consult]
      show _ = (List.filterMap _ (id :: _)).map Signal.report
      rw [List.filterMap_cons]
      cases useReport? r loc feature id <;> rfl

variable {profiles : ProfileSet} {minimum : Int32}

/-- A version gate is refused the first identity it lists that is refused, in its profiles. -/
theorem version_eq_error_iff :
    (version o r loc profiles minimum ids feature).result = .error e ↔
      o.profile ∈ profiles ∧ ids.findSome? r.refusal? = some e := by
  unfold version
  by_cases hp : o.profile ∈ profiles
  · rw [if_pos hp, Outcome.result_bind, result_mapM_consult, ← Registry.mapM_behavior_eq_error_iff]
    cases hbs : ids.mapM r.behavior with
    | error e' =>
      show Except.error e' = Except.error e ↔ _
      simp only [hp, true_and, Except.error.injEq]
    | ok bs =>
      -- identities with behaviors have names too, so nothing is refused later on
      refine iff_of_false ?_ fun h => ok_ne_error _ _ h.2
      obtain ⟨texts, htexts⟩ := exists_names hbs
      show (if ¬(0 < minimum ∧ minimum ≤ o.version) ∧ ¬bs.any Behavior.isUsable = true then
        _ else _ : Outcome Unit).result ≠ _
      by_cases hversion : ¬(0 < minimum ∧ minimum ≤ o.version) ∧ ¬bs.any Behavior.isUsable = true
      · rw [if_pos hversion, Outcome.result_bind, Outcome.result_bind, htexts]
        exact ok_ne_error _ _
      · rw [if_neg hversion]
        exact ok_ne_error _ _
  · rw [if_neg hp]
    exact iff_of_false (ok_ne_error _ _) fun h => hp h.1

/-- A refused version gate has reported the uses before the refused identity. -/
theorem signals_version_of_refused (hp : o.profile ∈ profiles)
    (h : ids.findSome? r.refusal? = some e) :
    (version o r loc profiles minimum ids feature).signals =
      (useReports r loc feature ids).map .report := by
  have hread : (ids.mapM (consult r loc feature)).result = .error e :=
    (result_mapM_consult ids).trans (Registry.mapM_behavior_eq_error_iff.mpr h)
  rw [version, if_pos hp, Outcome.bind_of_error hread, signals_mapM_consult_of_refused h]

/-! ## Extension gates -/

variable {channel : Channel}

/-- An extension gate is refused an identity that stands before every extension that is on
(`scanRefusal?`). -/
theorem extensions_eq_error_iff :
    (extensions o r channel loc ids feature).result = .error e ↔
      r.scanRefusal? Behavior.isTurnedOn ids = some e := by
  rw [← Registry.anyOf_eq_error_iff, ← r.anyTurnedOn_eq_anyOf]
  cases h : r.anyTurnedOn ids with
  | error e' =>
    simp only [extensions_of_error h, Except.error.injEq]
  | ok on =>
    refine iff_of_false ?_ (ok_ne_error _ _)
    cases on with
    | true =>
      rw [extensions_of_on h]
      exact ok_ne_error _ _
    | false =>
      -- every extension was looked at, so they all have behaviors
      have hserved : ∀ id ∈ ids, r.refusal? id = none :=
        Registry.served_of_anyOf_eq_false ((r.anyTurnedOn_eq_anyOf ids).symm.trans h)
      rw [extensions_of_off h, result_refuse]
      cases hbs : ids.mapM r.behavior with
      | ok bs => exact ok_ne_error _ _
      | error e' =>
        rw [Registry.mapM_behavior_eq_error_iff, List.findSome?_eq_none_iff.mpr hserved] at hbs
        exact absurd hbs (Option.some_ne_none _).symm

/-- A refused extension gate has given off nothing, for it looks for one that is on first. -/
theorem signals_extensions_of_refused (h : r.scanRefusal? Behavior.isTurnedOn ids = some e) :
    (extensions o r channel loc ids feature).signals = [] := by
  rw [extensions_of_error ((r.anyTurnedOn_eq_anyOf ids).trans (Registry.anyOf_eq_error_iff.mpr h))]

end Gate

/-! ## Checks -/

namespace Check

/-- Why a check is refused, if it is. Of the gates only those with a list are. -/
def refusal? (o : Options) (r : Registry) : Check ExtensionId → Option Refusal
  | .version profiles _ ids =>
    if o.profile ∈ profiles then ids.findSome? r.refusal? else none
  | .extensions _ ids => r.scanRefusal? Behavior.isTurnedOn ids
  | _ => none

/-- What a refused check has reported. -/
def reportsBefore (r : Registry) (loc : Location) (feature : String) :
    Check ExtensionId → List Diagnostic
  | .version _ _ ids => Gate.useReports r loc feature ids
  | _ => []

variable {e : Refusal}

/-- A check whose identities are all served is not refused. -/
theorem refusal?_of_served {k : Check ExtensionId} (h : ∀ id ∈ k.ids, r.refusal? id = none) :
    k.refusal? o r = none := by
  cases k with
  | version profiles minimum ids =>
    have hids : ids.findSome? r.refusal? = none := List.findSome?_eq_none_iff.mpr h
    rw [refusal?, hids, ite_self]
  | extensions channel ids =>
    rw [refusal?, Registry.scanRefusal?]
    exact List.findSome?_eq_none_iff.mpr fun id hid =>
      h id (List.takeWhile_subset _ hid)
  | _ => rfl

/-- A gate is refused exactly as `refusal?` says. -/
theorem run_eq_error_iff_of_isGate {k : Check ExtensionId} (hk : k.isGate = true) :
    (k.run o r loc feature).result = .error e ↔ k.refusal? o r = some e := by
  cases k with
  | version profiles minimum ids =>
    rw [refusal?, Option.ite_none_right_eq_some]
    exact Gate.version_eq_error_iff
  | extensions channel ids => exact Gate.extensions_eq_error_iff
  | profile | stage | removed | withoutSpirv | withoutVulkan | vulkanOnly | spirvOnly =>
    refine iff_of_false ?_ (Option.some_ne_none _).symm
    simp only [run, Gate.profile, Gate.stage, Gate.removed, Gate.withoutSpirv, Gate.withoutVulkan,
      Gate.vulkanOnly, Gate.spirvOnly]
    split <;> exact ok_ne_error _ _
  | deprecated profiles since =>
    refine iff_of_false ?_ (Option.some_ne_none _).symm
    simp only [run, Gate.deprecated]
    split
    · split <;> exact ok_ne_error _ _
    · exact ok_ne_error _ _
  | unimplemented => exact iff_of_false (ok_ne_error _ _) (Option.some_ne_none _).symm
  | fullInteger | double | int64 | int16 | float16 => exact absurd hk Bool.false_ne_true

/-- Gates that are not refused are not refused in turn. -/
theorem inTurn_ne_error {parts : List (Check ExtensionId × String)}
    (h : ∀ part ∈ parts, (part.1.run o r loc part.2).result ≠ .error e) :
    (inTurn o r loc parts).result ≠ .error e := by
  induction parts with
  | nil => exact ok_ne_error _ _
  | cons part rest ih =>
    obtain ⟨k, feature⟩ := part
    obtain ⟨hpart, hrest⟩ := List.forall_mem_cons.mp h
    rw [inTurn, Outcome.result_bind]
    cases hresult : (k.run o r loc feature).result with
    | error e' =>
      rintro ⟨⟩
      exact hpart hresult
    | ok _ => exact ih hrest

/-- A check is refused exactly as `refusal?` says. -/
theorem run_eq_error_iff (hr : r.Sound) {k : Check ExtensionId} :
    (k.run o r loc feature).result = .error e ↔ k.refusal? o r = some e := by
  cases hk : k.isGate with
  | true => exact run_eq_error_iff_of_isGate hk
  | false =>
    have hnone : k.refusal? o r = none := by
      cases k with
      | fullInteger | double | int64 | int16 | float16 => rfl
      | _ => exact absurd hk (by simp [isGate])
    rw [hnone, run_eq_inTurn]
    refine iff_of_false (inTurn_ne_error fun part hpart => ?_) (Option.some_ne_none _).symm
    -- the gates of a scalar check list extensions of the catalog
    have hserved : part.1.refusal? o r = none := refusal?_of_served fun id hid => by
      obtain ⟨f, rfl⟩ := exists_eq_id_of_mem_parts hk hpart hid
      exact hr.refusal?_id f
    rw [ne_eq, run_eq_error_iff_of_isGate (isGate_of_mem_parts hpart), hserved]
    exact (Option.some_ne_none _).symm

/-- A refused check has given off only reports of extensions that are to warn (`reportsBefore`). -/
theorem signals_of_refused {k : Check ExtensionId} (h : k.refusal? o r = some e) :
    (k.run o r loc feature).signals = (k.reportsBefore r loc feature).map .report := by
  cases k with
  | version profiles minimum ids =>
    obtain ⟨hp, hids⟩ := Option.ite_none_right_eq_some.mp h
    exact Gate.signals_version_of_refused hp hids
  | extensions channel ids => exact Gate.signals_extensions_of_refused h
  | _ => exact absurd h (Option.some_ne_none _).symm

/-- So what it has reported are warnings. -/
theorem isError_of_mem_reportsBefore {k : Check ExtensionId} {d : Diagnostic}
    (h : d ∈ k.reportsBefore r loc feature) : d.isError = false := by
  cases k with
  | version profiles minimum ids => exact Gate.isError_of_mem_useReports h
  | _ => exact absurd h List.not_mem_nil

end Check

/-! ## Questions -/

namespace Query

/-- Why a question is refused, if it is. -/
def refusal? (r : Registry) : Query ExtensionId → Option Refusal
  | .behavior id | .nameOf id | .turnedOn id => r.refusal? id
  | .behaviorOf _ => none
  | .anyTurnedOn ids => r.scanRefusal? Behavior.isTurnedOn ids
  | .anyDeclared ids => r.scanRefusal? Behavior.isDeclared ids

/-- A question is refused exactly as `refusal?` says. -/
theorem answer_eq_error_iff {q : Query ExtensionId} {e : Refusal} :
    q.answer r = .error e ↔ q.refusal? r = some e := by
  have hmap {α : Type} (x : Except Refusal α) (f : α → Finding) :
      f <$> x = .error e ↔ x = .error e := by
    cases x with
    | error e' => simp only [Functor.map, Except.map, Except.error.injEq]
    | ok a => exact iff_of_false (ok_ne_error _ _) (ok_ne_error _ _)
  cases q with
  | behavior id => exact (hmap _ _).trans Registry.behavior_eq_error_iff
  | behaviorOf text =>
    exact iff_of_false (fun h => r.behaviorOf_ne_error text ((hmap _ _).mp h))
      (Option.some_ne_none _).symm
  | nameOf id => exact (hmap _ _).trans Registry.name_eq_error_iff
  | turnedOn id => exact (hmap _ _).trans Registry.behavior_eq_error_iff
  | anyTurnedOn ids =>
    rw [refusal?, ← Registry.anyOf_eq_error_iff, ← r.anyTurnedOn_eq_anyOf]
    exact hmap _ _
  | anyDeclared ids =>
    rw [refusal?, ← Registry.anyOf_eq_error_iff, ← r.anyDeclared_eq_anyOf]
    exact hmap _ _

/-- A question whose identities are all served is not refused. -/
theorem refusal?_of_served {q : Query ExtensionId} (h : ∀ id ∈ q.ids, r.refusal? id = none) :
    q.refusal? r = none := by
  cases q with
  | behavior id | nameOf id | turnedOn id => exact h id (List.mem_singleton_self id)
  | behaviorOf text => rfl
  | anyTurnedOn ids | anyDeclared ids =>
    rw [refusal?, Registry.scanRefusal?]
    exact List.findSome?_eq_none_iff.mpr fun id hid => h id (List.takeWhile_subset _ hid)

end Query

end ShaderCompat
