import ShaderCompat.Proofs.Extension.Interning

/-!
# What a directive reaches

An extension implies others, and those imply more. `Implies` is one such step and `Follows` tells
which names a directive for a name reaches in any number of steps; a name the catalog does not know
reaches only itself. `Extension.family` lists exactly what is reached (`mem_family_iff`), so the
relation can be decided, and the family of an identity is the family of its name
(`Registry.Sound.family_of_find?`).
-/

namespace ShaderCompat

namespace Extension

/-- A directive for the extension `e` gives `f` its behavior too. -/
def Implies (e f : Extension) : Prop := f ∈ e.implied

/-- Extensions are told apart by their names. -/
theorem name_injective : Function.Injective name := by
  intro e f h
  have hnames : (all.map name)[e.index]? = (all.map name)[f.index]? := by
    rw [List.getElem?_map, List.getElem?_map,
      show all[e.index]? = some e from ofIndex?_index e,
      show all[f.index]? = some f from ofIndex?_index f, Option.map_some, Option.map_some, h]
  have hlt : e.index < (all.map name).length := by
    rw [List.length_map]
    exact e.index_lt
  have hindex : e.index = f.index := (List.getElem?_inj hlt names_nodup).mp hnames
  have hsame : ofIndex? e.index = ofIndex? f.index := by rw [hindex]
  rw [ofIndex?_index, ofIndex?_index] at hsame
  exact Option.some.inj hsame

/-- Every extension is in the catalog. -/
theorem mem_all (e : Extension) : e ∈ all := List.mem_of_getElem? (ofIndex?_index e)

/-- `ofName?` finds an extension by its name. -/
theorem ofName?_name (e : Extension) : ofName? e.name = some e := by
  cases h : ofName? e.name with
  | none =>
    have hnone := List.find?_eq_none.mp h e e.mem_all
    simp at hnone
  | some f =>
    have hname := List.find?_some h
    rw [name_injective (eq_of_beq hname)]

/-- `ofName?` finds the extension with that name. -/
theorem ofName?_eq_some_iff {text : String} {e : Extension} :
    ofName? text = some e ↔ e.name = text := by
  constructor
  · intro h
    have hname := List.find?_some h
    exact eq_of_beq hname
  · rintro rfl
    exact e.ofName?_name

/-- `ofName?` finds nothing if no extension has the name. -/
theorem ofName?_eq_none_iff {text : String} :
    ofName? text = none ↔ ∀ e : Extension, e.name ≠ text := by
  rw [Option.eq_none_iff_forall_ne_some]
  exact forall_congr' fun e => not_congr ofName?_eq_some_iff

/-- The one identity behind which a known extension stands is its own. -/
theorem eq_id_of_known? {id : ExtensionId} {e : Extension} (h : id.known? = some e) :
    id = e.id := by
  rw [ExtensionId.known?] at h
  by_cases hcat : id.isCatalog = true
  · rw [if_pos hcat] at h
    have hlt : id.index.toNat < all.length := (List.getElem?_eq_some_iff.mp h).1
    have hindex : id.index.toNat = e.index :=
      (List.getElem?_inj hlt (names_nodup.of_map _)).mp (h.trans (ofIndex?_index e).symm)
    obtain ⟨index, owner⟩ := id
    obtain rfl : owner = ExtensionId.catalogOwner := eq_of_beq hcat
    have hword : index = UInt32.ofNat e.index := by
      rw [← hindex, UInt32.ofNat_toNat]
    rw [hword]
    rfl
  · rw [if_neg hcat] at h
    exact absurd h (by simp)

/-- A `family` holds the extension and all that implication leads to from it. -/
theorem mem_family_iff {e f : Extension} :
    f ∈ e.family ↔ Relation.ReflTransGen Implies e f := by
  -- the list goes two steps deep, which is as far as implication leads
  constructor
  · intro h
    rcases List.mem_cons.mp h with rfl | h
    · exact Relation.ReflTransGen.refl
    · obtain ⟨m, hm, hf⟩ := List.mem_flatMap.mp h
      have hem : Relation.ReflTransGen Implies e m := Relation.ReflTransGen.single hm
      rcases List.mem_cons.mp hf with rfl | hf
      · exact hem
      · exact hem.tail hf
  · intro h
    induction h using Relation.ReflTransGen.head_induction_on with
    | refl => exact List.mem_cons_self
    | head hstep _ ih =>
      rw [family_eq]
      exact List.mem_cons_of_mem _ (List.mem_flatMap.mpr ⟨_, hstep, ih⟩)

end Extension

/-- `x` is `text`, or the name of an extension that implication leads to from `text`. -/
def Follows (text x : String) : Prop :=
  x = text ∨ ∃ e f : Extension,
    e.name = text ∧ Relation.ReflTransGen Extension.Implies e f ∧ f.name = x

/-- The names that a directive for a name reaches, in the order they are reached. A name that is not
known reaches itself alone. -/
def familyOf (text : String) : List String :=
  match Extension.ofName? text with
  | some e => e.family.map Extension.name
  | none => [text]

/-- `familyOf` lists the names that follow. -/
theorem mem_familyOf_iff {text x : String} : x ∈ familyOf text ↔ Follows text x := by
  cases h : Extension.ofName? text with
  | none =>
    rw [familyOf, h, List.mem_singleton]
    constructor
    · exact Or.inl
    · rintro (hx | ⟨e, f, hname, -, -⟩)
      · exact hx
      · rw [← hname, Extension.ofName?_name] at h
        exact absurd h (by simp)
  | some e =>
    have hname : e.name = text := Extension.ofName?_eq_some_iff.mp h
    rw [familyOf, h]
    show x ∈ e.family.map Extension.name ↔ Follows text x
    rw [List.mem_map]
    constructor
    · rintro ⟨f, hf, hx⟩
      exact Or.inr ⟨e, f, hname, Extension.mem_family_iff.mp hf, hx⟩
    · rintro (rfl | ⟨e', f, hname', hf, hx⟩)
      · exact ⟨e, Extension.mem_family_iff.mpr Relation.ReflTransGen.refl, hname⟩
      · obtain rfl : e' = e := Extension.name_injective (hname'.trans hname.symm)
        exact ⟨f, Extension.mem_family_iff.mpr hf, hx⟩

instance (text x : String) : Decidable (Follows text x) :=
  decidable_of_iff (x ∈ familyOf text) mem_familyOf_iff

namespace Registry

/-- The identity of a place belongs to the extension at that place of the catalog, if any. -/
theorem known?_idAt (r : Registry) {place : Nat} (hplace : place < 2 ^ 32) :
    (r.idAt place).known? = Extension.all[place]? := by
  by_cases hlt : place < Extension.all.length
  · have hcat : (r.idAt place).isCatalog = true := by
      rw [idAt, if_pos hlt]
      rfl
    rw [ExtensionId.known?, if_pos hcat, index_idAt r hplace]
    rfl
  · rw [List.getElem?_eq_none (Nat.le_of_not_lt hlt), ExtensionId.known?, index_idAt r hplace]
    have hnone : Extension.ofIndex? place = none := List.getElem?_eq_none (Nat.le_of_not_lt hlt)
    rw [hnone, ite_self]

/-- What the catalog knows of the identity of a text is what it knows of the text. -/
theorem Sound.known?_of_find? {r : Registry} (hr : r.Sound) (hsize : r.size ≤ 2 ^ 32)
    {text : String} {id : ExtensionId} (h : r.find? text = some id) :
    id.known? = Extension.ofName? text := by
  obtain ⟨place, hplace, rfl⟩ := exists_place_of_find? h
  have hin : place < r.size := (List.getElem?_eq_some_iff.mp hplace).1
  rw [known?_idAt r (Nat.lt_of_lt_of_le hin hsize)]
  cases hname : Extension.ofName? text with
  | some e =>
    -- the name stands at the extension's own place only
    have hfind := (find?_of_getElem? hr.nodup hplace).symm.trans
      (find?_of_getElem? hr.nodup (Extension.ofName?_eq_some_iff.mp hname ▸ hr.getElem?_index e))
    have hsame : place = e.index :=
      (r.idAt_inj (Nat.lt_of_lt_of_le hin hsize)
        (Nat.lt_trans e.index_lt (by decide))).mp (Option.some.inj hfind)
    rw [hsame]
    exact Extension.ofIndex?_index e
  | none =>
    refine List.getElem?_eq_none (Nat.le_of_not_lt fun hlt => ?_)
    obtain ⟨e, rfl⟩ := (hr.lt_catalog_iff hplace).mp hlt
    rw [Extension.ofName?_name] at hname
    exact absurd hname (by simp)

/-- The identities that a directive for an identity reaches are those of the names that a directive
for its name reaches. -/
theorem Sound.family_of_find? {r : Registry} (hr : r.Sound) (hsize : r.size ≤ 2 ^ 32)
    {text : String} {id : ExtensionId} (h : r.find? text = some id) :
    List.Forall₂ (fun i x => r.find? x = some i) id.family (familyOf text) := by
  rw [ExtensionId.family, hr.known?_of_find? hsize h, familyOf]
  cases Extension.ofName? text with
  | none => exact List.Forall₂.cons h List.Forall₂.nil
  | some e =>
    show List.Forall₂ _ (e.family.map Extension.id) (e.family.map Extension.name)
    rw [List.forall₂_map_left_iff, List.forall₂_map_right_iff, List.forall₂_same]
    exact fun f _ => hr.find?_name f

end Registry

end ShaderCompat
