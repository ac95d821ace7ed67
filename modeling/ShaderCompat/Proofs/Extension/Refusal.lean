import ShaderCompat.Proofs.Extension.Recording
import ShaderCompat.Proofs.Outcome

/-!
# Refused identities

Any pair of words can be asked about as an identity, so a registry has to say which it serves.
`refusal?` says so from the owner, the place and the number of names alone, and each operation on
one identity fails exactly as it says. A list is read only as far as need be: up to the first
extension that is on, or declared, and an identity behind that is never refused
(`anyOf_eq_error_iff`). A declaration is refused before it has changed anything
(`Sound.declare_of_refused`).
-/

namespace ShaderCompat

namespace Registry

/-- Why a registry refuses an identity, if it does: it does not own it, or has no name at its place.
-/
def refusal? (r : Registry) (id : ExtensionId) : Option Refusal :=
  if r.owns id then
    if id.index.toNat < r.size then none else some .outOfRange
  else some (.foreign id.index)

/-! ## One identity -/

section

variable {r : Registry} {id : ExtensionId} {e : Refusal}

/-- An identity is served if the registry `owns` it and has a name at its place. -/
theorem refusal?_eq_none_iff :
    r.refusal? id = none ↔ r.owns id = true ∧ id.index.toNat < r.size := by
  unfold refusal?
  by_cases hown : r.owns id = true
  · rw [if_pos hown]
    by_cases hlt : id.index.toNat < r.size <;> simp [hown, hlt]
  · rw [if_neg hown]
    simp [hown]

/-- A `table` with an entry for every name is read exactly where nothing is refused. -/
theorem lookup_eq_error_iff {α : Type} {table : List α} (htable : table.length = r.size) :
    r.lookup table id = .error e ↔ r.refusal? id = some e := by
  unfold lookup refusal?
  by_cases hown : r.owns id = true
  · rw [if_pos hown, if_pos hown]
    by_cases hlt : id.index.toNat < r.size
    · rw [if_pos hlt, List.getElem?_eq_getElem (htable.symm ▸ hlt)]
      exact iff_of_false (ok_ne_error _ _) (Option.some_ne_none _).symm
    · rw [if_neg hlt, List.getElem?_eq_none (htable.symm ▸ Nat.le_of_not_lt hlt)]
      show Except.error Refusal.outOfRange = Except.error e ↔ _
      rw [Except.error.injEq, Option.some.injEq]
  · rw [if_neg hown, if_neg hown, Except.error.injEq, Option.some.injEq]

/-- Looking up a name fails as `refusal?` says. -/
theorem name_eq_error_iff : r.name id = .error e ↔ r.refusal? id = some e :=
  lookup_eq_error_iff rfl

/-- Looking up a behavior fails as `refusal?` says. -/
theorem behavior_eq_error_iff : r.behavior id = .error e ↔ r.refusal? id = some e :=
  lookup_eq_error_iff r.aligned

/-- Setting a behavior fails as `refusal?` says. -/
theorem set_eq_error_iff {b : Behavior} : r.set id b = .error e ↔ r.refusal? id = some e := by
  rw [← behavior_eq_error_iff, set]
  cases r.behavior id with
  | error e' =>
    show Except.error e' = Except.error e ↔ Except.error e' = Except.error e
    rw [Except.error.injEq, Except.error.injEq]
  | ok old => exact iff_of_false (ok_ne_error _ _) (ok_ne_error _ _)

/-- An identity with a behavior is served. -/
theorem served_of_behavior {b : Behavior} (h : r.behavior id = .ok b) : r.refusal? id = none :=
  Option.eq_none_iff_forall_ne_some.mpr fun _ he =>
    absurd (h.symm.trans (behavior_eq_error_iff.mpr he)) (ok_ne_error _ _)

/-- An identity that is not refused has a name and a behavior. -/
theorem exists_slot_of_served (h : r.refusal? id = none) :
    ∃ s : Slot, r.name id = .ok s.name ∧ r.behavior id = .ok s.behavior := by
  obtain ⟨hown, hsize⟩ := refusal?_eq_none_iff.mp h
  have hname : id.index.toNat < r.names.length := hsize
  have hbehavior : id.index.toNat < r.behaviors.length := r.aligned.symm ▸ hsize
  exact ⟨⟨r.names[id.index.toNat], r.behaviors[id.index.toNat]⟩,
    lookup_eq_ok_iff.mpr ⟨hown, List.getElem?_eq_getElem hname⟩,
    lookup_eq_ok_iff.mpr ⟨hown, List.getElem?_eq_getElem hbehavior⟩⟩

/-- What is refused goes by the tag and the names alone. -/
theorem refusal?_congr {r' : Registry} (htag : r'.tag = r.tag) (hnames : r'.names = r.names) :
    r'.refusal? id = r.refusal? id := by
  rw [refusal?, refusal?, owns, owns, size, size, htag, hnames]

/-- The identities of the catalog are never refused. -/
theorem Sound.refusal?_id (hr : r.Sound) (f : Extension) : r.refusal? f.id = none := by
  cases h : r.refusal? f.id with
  | none => rfl
  | some e =>
    rw [← name_eq_error_iff, hr.name_id] at h
    exact absurd h (ok_ne_error _ _)

/-- The identity of a place where a name stands is never refused, even if the place does not fit a
word: what is left of the place does not grow. -/
theorem served_idAt {place : Nat} (h : place < r.size) : r.refusal? (r.idAt place) = none := by
  have hle : (r.idAt place).index.toNat ≤ place := by
    show (UInt32.ofNat place).toNat ≤ place
    rw [UInt32.toNat_ofNat']
    exact Nat.mod_le _ _
  exact refusal?_eq_none_iff.mpr ⟨r.owns_idAt place, Nat.lt_of_le_of_lt hle h⟩

/-- The identity given out for a name is served. -/
theorem served_intern (r : Registry) (text : String) :
    (r.intern text).1.refusal? (r.intern text).2 = none := by
  obtain ⟨place, hplace, hid⟩ := r.exists_place_intern text
  rw [hid, ← (Change.intern r text).evolves.idAt_eq]
  exact served_idAt (List.getElem?_eq_some_iff.mp hplace).1

/-- Asking by name is never refused. -/
theorem behaviorOf_ne_error (text : String) : r.behaviorOf text ≠ .error e := by
  rw [behaviorOf]
  cases h : r.find? text with
  | none => exact ok_ne_error _ _
  | some id =>
    obtain ⟨place, hplace, rfl⟩ := exists_place_of_find? h
    have hlt : place < r.size := (List.getElem?_eq_some_iff.mp hplace).1
    show r.behavior (r.idAt place) ≠ .error e
    rw [ne_eq, behavior_eq_error_iff, served_idAt hlt]
    exact (Option.some_ne_none _).symm

end

/-! ## Reading a list -/

/-- Behaviors in a row are read up to the first refused identity. -/
theorem mapM_behavior_eq_error_iff {r : Registry} {ids : List ExtensionId} {e : Refusal} :
    ids.mapM r.behavior = .error e ↔ ids.findSome? r.refusal? = some e :=
  mapM_eq_error_iff fun _ _ => behavior_eq_error_iff

section

variable {r : Registry} {p : Behavior → Bool} {ids : List ExtensionId} {e : Refusal}

/-- Whether one of the listed extensions has a behavior of the kind `p`; reading stops at the first
that has. -/
def anyOf (r : Registry) (p : Behavior → Bool) : List ExtensionId → Except Refusal Bool
  | [] => .ok false
  | id :: ids => do if p (← r.behavior id) then return true else r.anyOf p ids

/-- `anyTurnedOn` asks for the behaviors that are on. -/
theorem anyTurnedOn_eq_anyOf (r : Registry) (ids : List ExtensionId) :
    r.anyTurnedOn ids = r.anyOf Behavior.isTurnedOn ids := by
  induction ids with
  | nil => rfl
  | cons id ids ih => rw [anyTurnedOn, anyOf, ih]

/-- `anyDeclared` asks for the behaviors that are declared. -/
theorem anyDeclared_eq_anyOf (r : Registry) (ids : List ExtensionId) :
    r.anyDeclared ids = r.anyOf Behavior.isDeclared ids := by
  induction ids with
  | nil => rfl
  | cons id ids ih => rw [anyDeclared, anyOf, ih]

/-- Whether an identity is served and has a behavior of the kind `p`. -/
def has (r : Registry) (p : Behavior → Bool) (id : ExtensionId) : Bool :=
  match r.behavior id with
  | .ok b => p b
  | .error _ => false

/-- Why a list is not read until an extension with a behavior of the kind `p` turns up: the first
refused identity that stands before all of these. -/
def scanRefusal? (r : Registry) (p : Behavior → Bool) (ids : List ExtensionId) : Option Refusal :=
  (ids.takeWhile fun id => !r.has p id).findSome? r.refusal?

/-- A served extension in front ends the search, or lets it go on. -/
theorem anyOf_cons_of_ok {id : ExtensionId} {b : Behavior} (h : r.behavior id = .ok b) :
    r.anyOf p (id :: ids) = if p b then .ok true else r.anyOf p ids := by
  rw [anyOf, h]
  rfl

/-- A refused identity in front ends the search with its refusal. -/
theorem anyOf_cons_of_error {id : ExtensionId} (h : r.behavior id = .error e) :
    r.anyOf p (id :: ids) = .error e := by
  rw [anyOf, h]
  rfl

/-- `anyOf` fails as `scanRefusal?` says; what stands behind the first hit is not even looked at. -/
theorem anyOf_eq_error_iff : r.anyOf p ids = .error e ↔ r.scanRefusal? p ids = some e := by
  induction ids with
  | nil => exact iff_of_false (ok_ne_error _ _) (Option.some_ne_none _).symm
  | cons id ids ih =>
    rw [scanRefusal?, List.takeWhile_cons]
    cases hid : r.behavior id with
    | error e' =>
      have hhas : r.has p id = false := by rw [has, hid]
      rw [anyOf_cons_of_error hid, hhas, Bool.not_false, if_pos rfl, List.findSome?_cons,
        behavior_eq_error_iff.mp hid, Except.error.injEq, Option.some.injEq]
    | ok b =>
      have hhas : r.has p id = p b := by rw [has, hid]
      rw [anyOf_cons_of_ok hid, hhas]
      -- the list is read up to an extension of the kind asked for
      cases p b with
      | true => exact iff_of_false (ok_ne_error _ _) (Option.some_ne_none _).symm
      | false =>
        rw [if_neg Bool.false_ne_true, Bool.not_false, if_pos rfl, List.findSome?_cons,
          served_of_behavior hid]
        exact ih

/-- If no extension of a list has a behavior of the kind, the list was read to its end. -/
theorem served_of_anyOf_eq_false (h : r.anyOf p ids = .ok false) :
    ∀ id ∈ ids, r.refusal? id = none := by
  induction ids with
  | nil => exact fun id hid => absurd hid List.not_mem_nil
  | cons id ids ih =>
    cases hid : r.behavior id with
    | error e' =>
      rw [anyOf_cons_of_error hid] at h
      exact absurd h.symm (ok_ne_error _ _)
    | ok b =>
      rw [anyOf_cons_of_ok hid] at h
      by_cases hb : p b = true
      · rw [if_pos hb] at h
        exact absurd h (by simp)
      · rw [if_neg hb] at h
        exact List.forall_mem_cons.mpr ⟨served_of_behavior hid, ih h⟩

end

/-! ## Declarations -/

section

variable {r : Registry} {id : ExtensionId} {e : Refusal} (loc : Location) (b : Behavior)

/-- A refused identity implies nothing, so a declaration for it is refused at once. -/
theorem Sound.declare_of_refused (hr : r.Sound) (h : r.refusal? id = some e) :
    Directive.declare loc id b r = ⟨r, [], .error e⟩ := by
  have hknown : id.known? = none := Option.eq_none_iff_forall_ne_some.mpr fun f hf => by
    rw [Extension.eq_id_of_known? hf, hr.refusal?_id] at h
    exact absurd h (Option.some_ne_none _).symm
  have hslot : r.slot id = .error e := by
    rw [slot, name_eq_error_iff.mpr h]
    rfl
  have hone : Directive.declareOne loc b id r = ⟨r, [], .error e⟩ := by
    rw [Directive.declareOne, hslot]
  rw [Directive.declare, ExtensionId.family, hknown]
  show (Directive.declareOne loc b id r).andThen _ = _
  rw [hone]
  rfl

/-- Behaviors are given to served identities, one after another, without a refusal. -/
theorem each_declareOne_of_served {ids : List ExtensionId}
    (h : ∀ id ∈ ids, r.refusal? id = none) :
    (Update.each (Directive.declareOne loc b) ids r).result = .ok () := by
  induction ids generalizing r with
  | nil => rfl
  | cons id ids ih =>
    obtain ⟨hid, hids⟩ := List.forall_mem_cons.mp h
    obtain ⟨s, hname, hbehavior⟩ := exists_slot_of_served hid
    have hslot : r.slot id = .ok s := by
      rw [slot, hname, hbehavior]
      rfl
    cases hset : r.set id b with
    | error e =>
      rw [set_eq_error_iff, hid] at hset
      exact absurd hset (Option.some_ne_none _).symm
    -- setting a behavior changes neither tag nor names, so the others are served still
    | ok r' =>
      obtain ⟨-, htag, hnames, -⟩ := set_eq_ok_iff.mp hset
      rw [Update.each, Directive.declareOne, hslot, hset]
      exact ih fun id hid => (refusal?_congr htag hnames).trans (hids id hid)

/-- A declaration for a served identity is not refused, for what it implies is of the catalog. -/
theorem Sound.declare_of_served (hr : r.Sound) (h : r.refusal? id = none) :
    (Directive.declare loc id b r).result = .ok () := by
  refine each_declareOne_of_served loc b fun i hi => ?_
  rw [ExtensionId.family] at hi
  cases hknown : id.known? with
  | none =>
    rw [hknown] at hi
    rw [List.mem_singleton.mp hi, h]
  | some f =>
    rw [hknown] at hi
    obtain ⟨g, -, rfl⟩ := List.mem_map.mp hi
    exact hr.refusal?_id g

/-- A declaration is refused exactly as its identity is. -/
theorem Sound.declare_eq_error_iff (hr : r.Sound) :
    (Directive.declare loc id b r).result = .error e ↔ r.refusal? id = some e := by
  cases h : r.refusal? id with
  | none =>
    rw [hr.declare_of_served loc b h]
    exact iff_of_false (ok_ne_error _ _) (Option.some_ne_none _).symm
  | some e' =>
    rw [hr.declare_of_refused loc b h]
    show Except.error e' = Except.error e ↔ _
    rw [Except.error.injEq, Option.some.injEq]

end

end Registry

end ShaderCompat
