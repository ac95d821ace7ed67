import ShaderCompat.Proofs.Extension.Refusal

/-!
# Identities that alias

Whether an identity is its own a registry tells by the owner alone, and then reads its tables at the
place that the identity gives. A place has thus two identities that are served: the one the registry
gives out for it, and one with the other owner. `Genuine` identities have the owner that their place
asks for. Among those there is no aliasing (`genuine_identities`), and one that is not genuine is an
alias of one that is.
-/

namespace ShaderCompat

/-- The owner is that of the catalog just if the place is one of the catalog. A registry gives out
no other identities. -/
def ExtensionId.Genuine (id : ExtensionId) : Prop :=
  id.isCatalog = true ↔ id.index.toNat < Extension.all.length

instance (id : ExtensionId) : Decidable id.Genuine :=
  inferInstanceAs (Decidable (id.isCatalog = true ↔ id.index.toNat < Extension.all.length))

namespace Registry

variable {r : Registry} {id : ExtensionId} {text : String}

/-- The identity that the registry gives out for a place keeps the place. -/
theorem index_idAt_index (r : Registry) (id : ExtensionId) :
    (r.idAt id.index.toNat).index = id.index := UInt32.ofNat_toNat

/-- An own identity is read as the one that the registry gives out for its place. -/
theorem lookup_idAt_index {α : Type} (hown : r.owns id = true) (table : List α) :
    r.lookup table (r.idAt id.index.toNat) = r.lookup table id := by
  rw [lookup, lookup, hown, r.owns_idAt, index_idAt_index]

/-- It has the same behavior. -/
theorem behavior_idAt_index (hown : r.owns id = true) :
    r.behavior (r.idAt id.index.toNat) = r.behavior id := lookup_idAt_index hown r.behaviors

/-- It is set alike. -/
theorem set_idAt_index (hown : r.owns id = true) (b : Behavior) :
    r.set (r.idAt id.index.toNat) b = r.set id b := by
  simp only [set, behavior_idAt_index hown, index_idAt_index]

/-- Of the own identities a registry gives out the `Genuine` ones. -/
theorem idAt_index_eq_iff (htag : r.tag ≠ ExtensionId.catalogOwner) (hown : r.owns id = true) :
    r.idAt id.index.toNat = id ↔ id.Genuine := by
  constructor
  · intro h
    have hgiven := isCatalog_idAt htag id.index.toNat
    rwa [h] at hgiven
  · intro hgenuine
    obtain ⟨index, owner⟩ := id
    have howner : (if index.toNat < Extension.all.length then ExtensionId.catalogOwner else r.tag) =
        owner := by
      -- past the catalog the owner has to be the registry, for it is not the catalog
      by_cases hlt : index.toNat < Extension.all.length
      · rw [if_pos hlt]
        exact (eq_of_beq (hgenuine.mpr hlt)).symm
      · rw [if_neg hlt]
        rcases Bool.or_eq_true_iff.mp hown with hcatalog | htag'
        · exact absurd (hgenuine.mp hcatalog) hlt
        · exact (eq_of_beq htag').symm
    rw [idAt, howner, UInt32.ofNat_toNat]

/-- The name of an identity is found under the identity that the registry gives out for its place.
-/
theorem Sound.find?_of_name (hr : r.Sound) (h : r.name id = .ok text) :
    r.find? text = some (r.idAt id.index.toNat) :=
  find?_of_getElem? hr.nodup (lookup_eq_ok_iff.mp h).2

/-- Setting one place leaves the others as they are. -/
theorem behavior_set_of_ne {r' : Registry} {id' : ExtensionId} {b : Behavior}
    (h : r.set id b = .ok r') (hne : id.index ≠ id'.index) : r'.behavior id' = r.behavior id' := by
  obtain ⟨-, htag, -, hbehaviors⟩ := set_eq_ok_iff.mp h
  have hplace : id.index.toNat ≠ id'.index.toNat := fun heq => hne (UInt32.toNat_inj.mp heq)
  rw [behavior, behavior, lookup, lookup, owns, owns, htag, hbehaviors, List.getElem?_set_ne hplace]

/-- A served identity can be `set`, and then has what it was set to. -/
theorem exists_set_of_name (h : r.name id = .ok text) (b : Behavior) :
    ∃ r', r.set id b = .ok r' ∧ r'.behavior id = .ok b := by
  obtain ⟨hown, hplace⟩ := lookup_eq_ok_iff.mp h
  have hlt : id.index.toNat < r.behaviors.length := by
    rw [r.aligned]
    exact (List.getElem?_eq_some_iff.mp hplace).1
  cases hset : r.set id b with
  | error e =>
    rw [set_eq_error_iff, ← name_eq_error_iff, h] at hset
    exact absurd hset (ok_ne_error _ _)
  | ok r' =>
    obtain ⟨-, htag, -, hbehaviors⟩ := set_eq_ok_iff.mp hset
    refine ⟨r', rfl, lookup_eq_ok_iff.mpr ⟨?_, ?_⟩⟩
    · rw [owns, htag]
      exact hown
    · rw [hbehaviors, List.getElem?_set_self hlt]

/-- In a registry that has evolved from the catalog, with a tag of its own, an identity that is
served is what its name is found under exactly if it is `Genuine`. Two genuine identities that are
served have different names, and what one is set to is nothing to the other. An identity that is
served without being genuine reads and writes the slot of the one its name is found under. One that
has no name cannot be read or set either. -/
theorem genuine_identities {tag : UInt32} (htag : tag ≠ ExtensionId.catalogOwner)
    {r : Registry} (hr : (fresh tag).Evolves r) :
    (∀ id text, r.name id = .ok text → (r.find? text = some id ↔ id.Genuine)) ∧
    (∀ id id' text text', id.Genuine → id'.Genuine → id ≠ id' → r.name id = .ok text →
      r.name id' = .ok text' → text ≠ text' ∧
        ∀ b, ∃ r', r.set id b = .ok r' ∧ r'.behavior id = .ok b ∧
          r'.behavior id' = r.behavior id') ∧
    (∀ id text, r.name id = .ok text → ¬id.Genuine →
      ∃ id', id' ≠ id ∧ r.find? text = some id' ∧ r.behavior id' = r.behavior id ∧
        ∀ b, r.set id' b = r.set id b) ∧
    (∀ id e, r.name id = .error e → r.behavior id = .error e ∧ ∀ b, r.set id b = .error e) := by
  have hsound : r.Sound := hr.sound (sound_fresh tag)
  have hown : r.tag ≠ ExtensionId.catalogOwner := by
    rw [hr.tag_eq]
    exact htag
  have hgiven (id : ExtensionId) (text : String) (h : r.name id = .ok text) :
      r.idAt id.index.toNat = id ↔ id.Genuine :=
    idAt_index_eq_iff hown (lookup_eq_ok_iff.mp h).1
  refine ⟨fun id text h => ?_, fun id id' text text' hid hid' hne h h' => ?_,
    fun id text h hid => ?_, fun id e h => ?_⟩
  · rw [hsound.find?_of_name h, Option.some.injEq]
    exact hgiven id text h
  · have hindex : id.index ≠ id'.index := fun heq =>
      hne ((((hgiven id text h).mpr hid).symm.trans (by rw [heq])).trans
        ((hgiven id' text' h').mpr hid'))
    refine ⟨?_, fun b => ?_⟩
    · rintro rfl
      -- the name is found in one place only
      have hfind := (hsound.find?_of_name h).symm.trans (hsound.find?_of_name h')
      rw [(hgiven id text h).mpr hid, (hgiven id' text h').mpr hid'] at hfind
      exact hne (Option.some.inj hfind)
    · obtain ⟨r', hset, hb⟩ := exists_set_of_name h b
      exact ⟨r', hset, hb, behavior_set_of_ne hset hindex⟩
  · have howns : r.owns id = true := (lookup_eq_ok_iff.mp h).1
    exact ⟨r.idAt id.index.toNat, fun heq => hid ((hgiven id text h).mp heq),
      hsound.find?_of_name h, behavior_idAt_index howns, set_idAt_index howns⟩
  · rw [name_eq_error_iff] at h
    exact ⟨behavior_eq_error_iff.mpr h, fun b => set_eq_error_iff.mpr h⟩

/-- A name read from source stays clear of an extension of the catalog. -/
theorem genuine_identities_source :
    ((fresh 1).intern "GL_VENDOR_x").1.find? "GL_VENDOR_x" = some ⟨79, 1⟩ ∧
      ∃ r', ((fresh 1).intern "GL_VENDOR_x").1.set ⟨79, 1⟩ .require = .ok r' ∧
        r'.behavior ⟨79, 1⟩ = .ok .require ∧
        r'.behavior Extension.extFragDepth.id =
          ((fresh 1).intern "GL_VENDOR_x").1.behavior Extension.extFragDepth.id := by
  obtain ⟨hfind, hapart, -, -⟩ :=
    genuine_identities (by decide : (1 : UInt32) ≠ ExtensionId.catalogOwner)
      (Change.intern (fresh 1) "GL_VENDOR_x").evolves
  have hname : ((fresh 1).intern "GL_VENDOR_x").1.name ⟨79, 1⟩ = .ok "GL_VENDOR_x" := by
    decide +kernel
  have hcatalog : ((fresh 1).intern "GL_VENDOR_x").1.name Extension.extFragDepth.id =
      .ok "GL_EXT_frag_depth" := by decide +kernel
  exact ⟨(hfind _ _ hname).mpr (by decide),
    (hapart _ _ _ _ (by decide) (by decide) (by decide) hname hcatalog).2 .require⟩

/-- A place past the end of the catalog, given with `catalogOwner`, is taken for the first name read
from source, and sets its behavior. -/
theorem aliased_past_catalog :
    ∃ r, (fresh 1).Evolves r ∧ r.name (.inCatalog 79) = .ok "GL_VENDOR_x" ∧
      r.find? "GL_VENDOR_x" = some ⟨79, 1⟩ ∧ ExtensionId.inCatalog 79 ≠ ⟨79, 1⟩ ∧
      r.behavior ⟨79, 1⟩ = .ok .missing ∧
      (r.set (.inCatalog 79) .require).bind (fun r' => r'.behavior ⟨79, 1⟩) = .ok .require :=
  ⟨((fresh 1).intern "GL_VENDOR_x").1, (Change.intern _ _).evolves, by decide +kernel,
    by decide +kernel, by decide, by decide +kernel, by decide +kernel⟩

end Registry

end ShaderCompat
