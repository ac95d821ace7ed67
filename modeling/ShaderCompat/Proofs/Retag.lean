import Mathlib.Logic.Equiv.Basic
import ShaderCompat.Directive
import ShaderCompat.Proofs.Gate.Congruence

/-!
# Owner tags are only names

A registry recognises its own identities by its tag, and what the tag is does not matter: if the
tags of registries and identities are renamed together, so that different tags stay different and
that of the catalog stays what it is, every operation does the same under the new names. Each
theorem here says so of one operation, refusals included. A check, which only reads, gives off the
very same signals.
-/

namespace ShaderCompat

/-- A renaming of owner tags: different tags stay different, and `catalogOwner` stays what it is. -/
structure Retagging where
  tag : UInt32 → UInt32
  injective : Function.Injective tag
  catalog : tag ExtensionId.catalogOwner = ExtensionId.catalogOwner

variable (ρ : Retagging)

/-! ## Identities -/

namespace ExtensionId

/-- The identity with its owner renamed. -/
def retag (id : ExtensionId) : ExtensionId := ⟨id.index, ρ.tag id.owner⟩

/-- An identity is of the catalog under the new names exactly if it is under the old. -/
theorem isCatalog_retag (id : ExtensionId) : (id.retag ρ).isCatalog = id.isCatalog := by
  rw [Bool.eq_iff_iff]
  show (ρ.tag id.owner == catalogOwner) = true ↔ (id.owner == catalogOwner) = true
  rw [beq_iff_eq, beq_iff_eq]
  constructor
  · intro h
    exact ρ.injective (h.trans ρ.catalog.symm)
  · intro h
    rw [h, ρ.catalog]

/-- The same extension is behind it. -/
theorem known?_retag (id : ExtensionId) : (id.retag ρ).known? = id.known? := by
  rw [known?, known?, isCatalog_retag]
  rfl

/-- The identities of the catalog (`Extension.id`) are nobody's own, so they stay what they are. -/
theorem retag_id (e : Extension) : e.id.retag ρ = e.id := by
  show (⟨e.id.index, ρ.tag catalogOwner⟩ : ExtensionId) = e.id
  rw [ρ.catalog]
  rfl

/-- `family` is renamed with the identity; what an extension implies is of the catalog and stays. -/
theorem family_retag (id : ExtensionId) : (id.retag ρ).family = id.family.map (retag ρ) := by
  rw [family, family, known?_retag]
  cases id.known? with
  | none => rfl
  | some e =>
    show e.family.map Extension.id = (e.family.map Extension.id).map (retag ρ)
    rw [List.map_map]
    exact List.map_congr_left fun f _ => (retag_id ρ f).symm

end ExtensionId

/-! ## Registries -/

namespace Registry

/-- The registry with its tag renamed. -/
def retag (r : Registry) : Registry := { r with tag := ρ.tag r.tag }

/-- A registry serves the identities under their new names that it served under the old. -/
theorem owns_retag (r : Registry) (id : ExtensionId) :
    (r.retag ρ).owns (id.retag ρ) = r.owns id := by
  have htag : (ρ.tag id.owner == ρ.tag r.tag) = (id.owner == r.tag) := by
    rw [Bool.eq_iff_iff, beq_iff_eq, beq_iff_eq]
    exact ρ.injective.eq_iff
  rw [owns, owns, ExtensionId.isCatalog_retag]
  exact congrArg _ htag

/-- `lookup` goes by the index, so it finds the same or refuses the same. -/
theorem lookup_retag {α : Type} (r : Registry) (table : List α) (id : ExtensionId) :
    (r.retag ρ).lookup table (id.retag ρ) = r.lookup table id := by
  rw [lookup, lookup, owns_retag]
  rfl

/-- The `name` of an identity stays, or its refusal. -/
theorem name_retag (r : Registry) (id : ExtensionId) :
    (r.retag ρ).name (id.retag ρ) = r.name id := r.lookup_retag ρ r.names id

/-- The `behavior` of an identity stays, or its refusal. -/
theorem behavior_retag (r : Registry) (id : ExtensionId) :
    (r.retag ρ).behavior (id.retag ρ) = r.behavior id := r.lookup_retag ρ r.behaviors id

/-- So does the `slot`. -/
theorem slot_retag (r : Registry) (id : ExtensionId) :
    (r.retag ρ).slot (id.retag ρ) = r.slot id := by
  rw [slot, slot, name_retag, behavior_retag]

/-- The identity of a place is renamed with the registry. -/
theorem idAt_retag (r : Registry) (place : Nat) :
    (r.retag ρ).idAt place = (r.idAt place).retag ρ := by
  unfold idAt ExtensionId.retag
  by_cases h : place < Extension.all.length
  · rw [if_pos h, if_pos h, ρ.catalog]
  · rw [if_neg h, if_neg h]
    rfl

/-- `tracked` gives the same extensions and behaviors, each identity under its new name. -/
theorem tracked_retag (r : Registry) :
    (r.retag ρ).tracked = r.tracked.map fun p => (p.1.retag ρ, p.2) := by
  rw [tracked, tracked, List.map_filterMap]
  refine List.filterMap_congr fun x _ => ?_
  obtain ⟨b, place⟩ := x
  show (if b.isDeclared then some ((r.retag ρ).idAt place, b) else none) =
    (if b.isDeclared then some (r.idAt place, b) else none).map _
  rw [idAt_retag]
  cases b <;> rfl

/-- `find?` finds a text in the same place. -/
theorem find?_retag (r : Registry) (text : String) :
    (r.retag ρ).find? text = (r.find? text).map (ExtensionId.retag ρ) := by
  rw [find?, find?, Option.map_map]
  exact congrArg (fun f => Option.map f _) (funext (r.idAt_retag ρ))

/-- `intern` takes a text in as before, and gives out the renamed identity. -/
theorem intern_retag (r : Registry) (text : String) :
    (r.retag ρ).intern text = ((r.intern text).1.retag ρ, (r.intern text).2.retag ρ) := by
  rw [intern, find?_retag, intern]
  cases r.find? text with
  | some id => rfl
  | none => exact Prod.ext rfl (r.idAt_retag ρ r.size)

/-- Its log entry has no tag in it. -/
theorem internEvents_retag (r : Registry) (text : String) :
    (r.retag ρ).internEvents text = r.internEvents text := by
  rw [internEvents, internEvents, find?_retag, Option.isSome_map]
  rfl

/-- `set` changes the same place, or refuses the same identity. -/
theorem set_retag (r : Registry) (id : ExtensionId) (b : Behavior) :
    (r.retag ρ).set (id.retag ρ) b = (r.set id b).map (retag ρ) := by
  rw [set, set, behavior_retag]
  cases r.behavior id <;> rfl

/-- The behavior under a name has nothing to do with tags. -/
theorem behaviorOf_retag (r : Registry) (text : String) :
    (r.retag ρ).behaviorOf text = r.behaviorOf text := by
  rw [behaviorOf, behaviorOf, find?_retag]
  cases r.find? text with
  | none => rfl
  | some id => exact r.behavior_retag ρ id

/-- A registry holds for an identity what it holds for it under the new names (`SameAt`). -/
theorem sameAt_retag (r : Registry) (id : ExtensionId) : r.SameAt (r.retag ρ) id (id.retag ρ) :=
  ⟨r.name_retag ρ id, r.behavior_retag ρ id⟩

end Registry

/-! ## Checks -/

/-- A check gives off the same signals under the new names, and ends in the same way. -/
theorem Check.run_retag (o : Options) (r : Registry) (loc : Location) (feature : String)
    (k : Check ExtensionId) :
    (k.map (ExtensionId.retag ρ)).run o (r.retag ρ) loc feature = k.run o r loc feature := by
  have hcatalog (e : Extension) : r.SameAt (r.retag ρ) e.id e.id := by
    have hsame := r.sameAt_retag ρ e.id
    rwa [ExtensionId.retag_id] at hsame
  have hrun := run_congr (f := id) (k := k) (Options.SameRules.refl o) hcatalog
    (fun id _ => r.sameAt_retag ρ id) loc feature
  rwa [map_id] at hrun

/-- A question has the same answer under the new names. -/
theorem Query.answer_retag (r : Registry) (q : Query ExtensionId) :
    (q.map (ExtensionId.retag ρ)).answer (r.retag ρ) = q.answer r := by
  have hanswer := answer_congr (f := id) (q := q) (r.behaviorOf_retag ρ)
    fun id _ => r.sameAt_retag ρ id
  rwa [map_id] at hanswer

/-! ## Directives -/

/-- The update with the tag of its registry renamed. -/
def Update.retag (u : Update) : Update := { u with registry := u.registry.retag ρ }

/-- A change and the one after it are renamed together, for the first is refused under the new names
exactly if it is under the old. -/
theorem Update.andThen_retag {next next' : Registry → Update}
    (h : ∀ r, next' (r.retag ρ) = (next r).retag ρ) (u : Update) :
    (u.retag ρ).andThen next' = (u.andThen next).retag ρ := by
  obtain ⟨r, signals, result⟩ := u
  cases result with
  | error e => rfl
  | ok _ =>
    show Update.mk (next' (r.retag ρ)).registry (signals ++ (next' (r.retag ρ)).signals)
      (next' (r.retag ρ)).result = _
    rw [h]
    rfl

/-- Changes in a row are renamed together, if each of them is. -/
theorem Update.each_retag {α β : Type} {f : α → Registry → Update} {g : β → Registry → Update}
    {h : α → β} (hf : ∀ a r, g (h a) (r.retag ρ) = (f a r).retag ρ) (as : List α) (r : Registry) :
    Update.each g (as.map h) (r.retag ρ) = (Update.each f as r).retag ρ := by
  induction as generalizing r with
  | nil => rfl
  | cons a as ih =>
    rw [List.map_cons, Update.each, Update.each, hf]
    exact Update.andThen_retag ρ ih (f a r)

namespace Directive

/-- One behavior is set alike, with the same remark. -/
theorem declareOne_retag (loc : Location) (b : Behavior) (id : ExtensionId) (r : Registry) :
    declareOne loc b (id.retag ρ) (r.retag ρ) = (declareOne loc b id r).retag ρ := by
  -- a remark tells of the extension, and not of the identity
  have hremarks (s : Slot) : remarks loc (id.retag ρ) s b = remarks loc id s b := by
    rw [remarks, remarks, ExtensionId.known?_retag]
  rw [declareOne, declareOne, Registry.slot_retag, Registry.set_retag]
  cases r.slot id with
  | error e => rfl
  | ok s =>
    cases r.set id b with
    | error e => rfl
    | ok r' =>
      show Update.mk _ (remarks loc (id.retag ρ) s b) _ = _
      rw [hremarks]
      rfl

/-- A directive by identity does the same, as do all that it implies. -/
theorem declare_retag (loc : Location) (id : ExtensionId) (b : Behavior) (r : Registry) :
    declare loc (id.retag ρ) b (r.retag ρ) = (declare loc id b r).retag ρ := by
  rw [declare, declare, ExtensionId.family_retag]
  exact Update.each_retag ρ (declareOne_retag ρ loc b) id.family r

/-- A directive as it stands in the source does the same; the name that it takes in is given out the
renamed identity. -/
theorem apply_retag (loc : Location) (text keyword : String) (r : Registry) :
    apply loc text keyword (r.retag ρ) = (apply loc text keyword r).retag ρ := by
  rw [apply, apply]
  cases Behavior.ofKeyword? keyword with
  | none => rfl
  | some b =>
    show (if text = everyExtension then _ else _ : Update) =
      (if text = everyExtension then _ else _ : Update).retag ρ
    by_cases htext : text = everyExtension
    · rw [if_pos htext, if_pos htext]
      cases b.isTurnedOn <;> rfl
    · rw [if_neg htext, if_neg htext, Registry.intern_retag, Registry.internEvents_retag]
      show Update.mk _ _ _ = Update.mk _ _ _
      rw [declare_retag]
      rfl

end Directive

end ShaderCompat
