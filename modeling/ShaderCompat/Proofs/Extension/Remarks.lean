import Mathlib.Data.List.Perm.Basic
import ShaderCompat.Proofs.Extension.Refusal
import ShaderCompat.Proofs.Reporting

/-!
# What a directive says

A directive is answered by remarks and log entries. They depend on a registry only through what it
has recorded for names: registries that may differ in the order of their names, and in names of
which nothing is recorded, say the same (`Directive.signals_apply_eq`). The one exception is the log
entry of a name that is taken in, which tells the place of the name.
-/

namespace ShaderCompat

/-- Whether a log entry is that of a name that was taken in. -/
def Event.isInterning : Event → Bool
  | .interned .. => true
  | _ => false

/-- Whether a signal is the log entry of a name that was taken in. -/
def Signal.isInterning : Signal → Bool
  | .log event => event.isInterning
  | .report _ => false

/-- The signals without the log entries of names taken in, which are all that tells of places. -/
def remarked (signals : List Signal) : List Signal := signals.filter fun s => !s.isInterning

/-- `remarked` takes lists apart. -/
@[simp] theorem remarked_append (a b : List Signal) :
    remarked (a ++ b) = remarked a ++ remarked b := List.filter_append ..

/-- `remarked` keeps or drops the first signal. -/
theorem remarked_cons (s : Signal) (rest : List Signal) :
    remarked (s :: rest) = if s.isInterning then remarked rest else s :: remarked rest := by
  rw [remarked, List.filter_cons]
  cases s.isInterning <;> rfl

/-- The log entries of names hold no reports. -/
theorem reports_remarked (signals : List Signal) :
    reports (remarked signals) = reports signals := by
  rw [reports, remarked, List.filterMap_filter, reports]
  refine List.filterMap_congr fun s _ => ?_
  cases s with
  | report d => rfl
  | log event => cases event <;> rfl

/-- The entry of a name is dropped. -/
theorem remarked_internEvents (r : Registry) (text : String) :
    remarked ((r.internEvents text).map .log) = [] := by
  unfold Registry.internEvents
  split <;> rfl

/-! ## Registries with the same records -/

namespace Registry

/-- Two registries have `recorded` the same for every name. Their names may stand in different
places. -/
structure Alike (r r' : Registry) : Prop where
  sound : r.Sound
  sound' : r'.Sound
  recorded : ∀ x, r'.recorded x = r.recorded x

variable {r r' : Registry}

/-- The same names are `declared`, in some order. -/
theorem Alike.declared_perm (h : r.Alike r') : r.declared.Perm r'.declared := by
  have hnodup : r.declared.Nodup := (nodup_declared h.sound.nodup).of_map _
  have hnodup' : r'.declared.Nodup := (nodup_declared h.sound'.nodup).of_map _
  refine (List.perm_ext_iff_of_nodup hnodup hnodup').mpr fun slot => ?_
  rw [mem_declared_iff h.sound.nodup, mem_declared_iff h.sound'.nodup, h.recorded]

/-- As many names are declared in the one as in the other, so the log entry is the same. -/
theorem Alike.setDeclaredEvent_eq (h : r.Alike r') (b : Behavior) :
    r'.setDeclaredEvent b = r.setDeclaredEvent b := by
  have hlength := h.declared_perm.length_eq
  rw [declared, declared, List.length_map, List.length_map] at hlength
  rw [setDeclaredEvent, setDeclaredEvent, touched_eq, touched_eq, tracked_eq, tracked_eq,
    List.length_map, List.length_map, hlength]

/-- A name may be taken in by both. -/
theorem Alike.intern (h : r.Alike r') (text : String) :
    (r.intern text).1.Alike (r'.intern text).1 where
  sound := (Change.intern r text).evolves.sound h.sound
  sound' := (Change.intern r' text).evolves.sound h.sound'
  recorded x := by
    rw [recorded_intern h.sound'.nodup, recorded_intern h.sound.nodup, h.recorded]

/-- Setting the same names leaves the records the same. -/
theorem Alike.sets (h : r.Alike r') {texts : List String} {b : Behavior} {s s' : Registry}
    (hs : r.Sets texts b s) (hs' : r'.Sets texts b s') : s.Alike s' where
  sound := hs.evolves.sound h.sound
  sound' := hs'.evolves.sound h.sound'
  recorded x := by rw [hs'.recorded, hs.recorded, h.recorded]

end Registry

/-! ## Declarations -/

namespace Directive

variable {r r' : Registry} (loc : Location) (b : Behavior)

/-- A remark depends on the extension behind the identity, and not on the identity. -/
theorem remarks_congr {id id' : ExtensionId} (h : id'.known? = id.known?) (s : Slot) :
    remarks loc id' s b = remarks loc id s b := by
  rw [remarks, remarks, h]

/-- What is said of an identity that is declared. -/
theorem signals_declareOne (hr : r.names.Nodup) {id : ExtensionId} {text : String}
    (h : r.name id = .ok text) :
    (declareOne loc b id r).signals = remarks loc id ⟨text, r.recorded text⟩ b := by
  obtain ⟨r', hset, -⟩ := Registry.exists_sets_of_name hr h b
  have hslot : r.slot id = .ok ⟨text, r.recorded text⟩ := by
    rw [Registry.slot, h, Registry.behavior_of_name hr h]
    rfl
  rw [declareOne, hslot, hset]

/-- Of the same names, declared one after another, the same is said by registries that are `Alike`.
-/
theorem signals_each_declareOne_eq (h : r.Alike r') (hsize : r.size ≤ 2 ^ 32)
    (hsize' : r'.size ≤ 2 ^ 32) {ids ids' : List ExtensionId} {texts : List String}
    (hids : List.Forall₂ (fun id x => r.find? x = some id) ids texts)
    (hids' : List.Forall₂ (fun id x => r'.find? x = some id) ids' texts) :
    (Update.each (declareOne loc b) ids' r').signals =
      (Update.each (declareOne loc b) ids r).signals := by
  induction texts generalizing r r' ids ids' with
  | nil =>
    rw [List.forall₂_nil_right_iff.mp hids, List.forall₂_nil_right_iff.mp hids']
    rfl
  | cons text texts ih =>
    obtain ⟨id, ids, hid, htail, rfl⟩ := List.forall₂_cons_right_iff.mp hids
    obtain ⟨id', ids', hid', htail', rfl⟩ := List.forall₂_cons_right_iff.mp hids'
    have hname : r.name id = .ok text := Registry.name_of_find? hsize hid
    have hname' : r'.name id' = .ok text := Registry.name_of_find? hsize' hid'
    obtain ⟨hresult, hsets⟩ := Registry.declareOne_sets h.sound.nodup hname loc b
    obtain ⟨hresult', hsets'⟩ := Registry.declareOne_sets h.sound'.nodup hname' loc b
    have hknown : id'.known? = id.known? :=
      (h.sound'.known?_of_find? hsize' hid').trans (h.sound.known?_of_find? hsize hid).symm
    have hhead : (declareOne loc b id' r').signals = (declareOne loc b id r).signals := by
      rw [signals_declareOne loc b h.sound'.nodup hname',
        signals_declareOne loc b h.sound.nodup hname, h.recorded, remarks_congr loc b hknown]
    -- the names are where they were, so the other identities are still theirs
    have hrest := ih (h.sets hsets hsets') (by rw [Registry.size, hsets.names]; exact hsize)
      (by rw [Registry.size, hsets'.names]; exact hsize')
      (htail.imp fun i x hx => (hsets.find? x).trans hx)
      (htail'.imp fun i x hx => (hsets'.find? x).trans hx)
    rw [Update.each, Update.each, Update.andThen, Update.andThen, hresult, hresult']
    exact congrArg₂ (· ++ ·) hhead hrest

/-- A declaration for the same name says the same. -/
theorem signals_declare_eq (h : r.Alike r') (hsize : r.size ≤ 2 ^ 32) (hsize' : r'.size ≤ 2 ^ 32)
    {text : String} {id id' : ExtensionId} (hid : r.find? text = some id)
    (hid' : r'.find? text = some id') :
    (declare loc id' b r').signals = (declare loc id b r).signals :=
  signals_each_declareOne_eq loc b h hsize hsize' (h.sound.family_of_find? hsize hid)
    (h.sound'.family_of_find? hsize' hid')

/-! ## Directives -/

/-- A directive is never refused. -/
theorem result_apply (hr : r.Sound) (text keyword : String) :
    (apply loc text keyword r).result = .ok () := by
  cases hkeyword : Behavior.ofKeyword? keyword with
  | none => rw [apply, hkeyword]
  | some b =>
    by_cases htext : text = everyExtension
    · rw [apply, hkeyword]
      show (if text = everyExtension then _ else _ : Update).result = _
      rw [if_pos htext]
      cases b.isTurnedOn <;> rfl
    · rw [apply_of_ne hkeyword htext loc]
      exact ((Registry.Change.intern r text).evolves.sound hr).declare_of_served loc b
        (r.served_intern text)

/-- A directive says the same to registries that are `Alike`, but for the log entry of its name. -/
theorem signals_apply_eq (h : r.Alike r') {text keyword : String}
    (hsize : (apply loc text keyword r).registry.size ≤ 2 ^ 32)
    (hsize' : (apply loc text keyword r').registry.size ≤ 2 ^ 32) :
    remarked (apply loc text keyword r').signals = remarked (apply loc text keyword r).signals := by
  -- the same three cases as in the directive
  cases hkeyword : Behavior.ofKeyword? keyword with
  | none => rw [apply, apply, hkeyword]
  | some b =>
    by_cases htext : text = everyExtension
    · rw [apply, apply, hkeyword]
      show remarked (if text = everyExtension then _ else _ : Update).signals =
        remarked (if text = everyExtension then _ else _ : Update).signals
      rw [if_pos htext, if_pos htext]
      cases b.isTurnedOn with
      | true => rfl
      | false =>
        show remarked [.log (r'.setDeclaredEvent b)] = remarked [.log (r.setDeclaredEvent b)]
        rw [h.setDeclaredEvent_eq]
    · rw [apply_of_ne hkeyword htext loc] at hsize hsize' ⊢
      rw [apply_of_ne hkeyword htext loc]
      have hdeclare := Registry.evolves_declare (r.intern text).1 loc (r.intern text).2 b
      have hdeclare' := Registry.evolves_declare (r'.intern text).1 loc (r'.intern text).2 b
      show remarked (_ ++ (declare loc (r'.intern text).2 b (r'.intern text).1).signals) =
        remarked (_ ++ (declare loc (r.intern text).2 b (r.intern text).1).signals)
      rw [remarked_append, remarked_append, remarked_internEvents, remarked_internEvents,
        signals_declare_eq loc b (h.intern text) (Nat.le_trans hdeclare.size_le hsize)
          (Nat.le_trans hdeclare'.size_le hsize') (h.sound.find?_intern text)
          (h.sound'.find?_intern text)]

end Directive

end ShaderCompat
