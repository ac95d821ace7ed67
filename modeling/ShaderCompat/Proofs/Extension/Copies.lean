import ShaderCompat.Proofs.Extension.Isolation

/-!
# Copies of a registry

A copy has the owner tag of the registry it was made from, so each of the two owns what the other
gives out. What was listed before the copy was made has the same place in both, and is named alike
for good. After that they list names each on its own, and a place may come to hold different names.
An identity is then honored (`Registry.Honors`) if it is refused or taken for the text it was given
out for. Both honor all identities of the other exactly as long as the names of one continue those
of the other (`Pool.copies_honor_iff`).
-/

namespace ShaderCompat

/-- A name of the shorter list stands in the longer one as well, at the same place. -/
theorem getElem?_of_isPrefix {l l' : List String} (h : l <+: l') {place : Nat} {text : String}
    (hplace : l[place]? = some text) : l'[place]? = some text := by
  obtain ⟨rest, rfl⟩ := h
  rw [List.getElem?_append_left (List.getElem?_eq_some_iff.mp hplace).1, hplace]

namespace Registry

variable {r r' : Registry} {id : ExtensionId} {text : String}

/-- An identity is refused altogether, or it is taken for that of the text: that is its name, it has
the behavior `recorded` for the text, and setting it sets the text alone. -/
def Honors (r : Registry) (id : ExtensionId) (text : String) : Prop :=
  (∃ e, r.name id = .error e ∧ r.behavior id = .error e ∧ ∀ b, r.set id b = .error e) ∨
    (r.name id = .ok text ∧ r.behavior id = .ok (r.recorded text) ∧
      ∀ b, ∃ r', r.set id b = .ok r' ∧ r.Sets [text] b r')

/-- The name tells: an identity that names nothing but the text reads and writes nothing else. -/
theorem Sound.honors_iff (hr : r.Sound) :
    r.Honors id text ↔ ∀ other, r.name id = .ok other → other = text := by
  constructor
  · rintro (⟨e, hname, -, -⟩ | ⟨hname, -, -⟩) other hother
    · exact absurd (hother.symm.trans hname) (ok_ne_error _ _)
    · exact Except.ok.inj (hother.symm.trans hname)
  · intro h
    cases hname : r.name id with
    | error e =>
      have hrefused : r.refusal? id = some e := name_eq_error_iff.mp hname
      exact Or.inl ⟨e, hname, behavior_eq_error_iff.mpr hrefused,
        fun b => set_eq_error_iff.mpr hrefused⟩
    | ok other =>
      obtain rfl : other = text := h other hname
      exact Or.inr ⟨hname, behavior_of_name hr.nodup hname, exists_sets_of_name hr.nodup hname⟩

/-- Registries with the same tag give out the same identities for the same places. -/
theorem idAt_eq_of_tag (htag : r'.tag = r.tag) (place : Nat) : r'.idAt place = r.idAt place := by
  rw [idAt, idAt, htag]

/-- While the names of one registry continue those of the other, identities are honored. -/
theorem Sound.honors_of_comparable (hr' : r'.Sound) (hsize : r.size ≤ 2 ^ 32)
    (h : r.names <+: r'.names ∨ r'.names <+: r.names) (hfind : r.find? text = some id) :
    r'.Honors id text := by
  rw [hr'.honors_iff]
  intro other hother
  obtain ⟨place, hplace, rfl⟩ := exists_place_of_find? hfind
  have hlt : place < 2 ^ 32 :=
    Nat.lt_of_lt_of_le (List.getElem?_eq_some_iff.mp hplace).1 hsize
  have hthere : r'.names[place]? = some other := by
    rw [← r.index_idAt hlt]
    exact (lookup_eq_ok_iff.mp hother).2
  rcases h with h | h
  · exact Option.some.inj (hthere.symm.trans (getElem?_of_isPrefix h hplace))
  · exact Option.some.inj ((getElem?_of_isPrefix h hthere).symm.trans hplace)

/-- A registry that honors all identities of a smaller one with the same tag continues its names. -/
theorem Sound.isPrefix_of_honors (hr : r.Sound) (hr' : r'.Sound) (htag : r'.tag = r.tag)
    (hsize : r.size ≤ 2 ^ 32) (hle : r.size ≤ r'.size)
    (h : ∀ text id, r.find? text = some id → r'.Honors id text) : r.names <+: r'.names := by
  rw [List.prefix_iff_getElem?]
  intro place hplace
  have hplace' : place < r'.names.length := Nat.lt_of_lt_of_le hplace hle
  have hfind : r.find? r.names[place] = some (r.idAt place) :=
    find?_of_getElem? hr.nodup (List.getElem?_eq_getElem hplace)
  have hname : r'.name (r.idAt place) = .ok r'.names[place] := by
    rw [← idAt_eq_of_tag htag]
    exact name_idAt (Nat.lt_of_lt_of_le hplace hsize) (List.getElem?_eq_getElem hplace')
  have hsame : r'.names[place] = r.names[place] :=
    hr'.honors_iff.mp (h _ _ hfind) _ hname
  rw [List.getElem?_eq_getElem hplace', hsame]

end Registry

namespace Pool

variable {p : Pool} {i : Nat} {r : Registry}

/-- Whatever is done in a pool, copies included, its registries list names as they should. -/
theorem sound_run (hp : ∀ {i : Nat} {r : Registry}, p.registries[i]? = some r → r.Sound)
    {steps : List (Nat × PoolStep)} (h : (p.run steps).1.registries[i]? = some r) : r.Sound := by
  induction steps generalizing p with
  | nil => exact hp h
  | cons s steps ih =>
    refine ih (fun {j r'} hr' => ?_) h
    -- a registry stood in the pool before, or it is new, or it is the copy of one
    rcases exists_registry_before hr' with ⟨r₀, hr₀, hevolves⟩ | ⟨-, r₀, hr₀, hmade⟩
    · exact hevolves.sound (hp hr₀)
    · cases hst : s.2 with
      | create =>
        rw [hst] at hmade
        obtain rfl : Registry.fresh p.nextTag = r' := List.singleton_inj.mp hmade
        exact Registry.sound_fresh _
      | copy =>
        rw [hst] at hmade
        obtain rfl : r₀ = r' := List.singleton_inj.mp hmade
        exact hp hr₀
      | _ =>
        rw [hst] at hmade
        exact absurd hmade (List.cons_ne_nil _ _).symm

/-- The registries of every run are sound. -/
theorem sound_of_start {steps : List (Nat × PoolStep)}
    (h : (start.run steps).1.registries[i]? = some r) : r.Sound :=
  sound_run (fun hr => numbered_start.sound hr) h

/-- After a copy, the registry and its copy evolve from the same one. -/
theorem evolves_of_copy {m r r' : Registry} (hm : p.registries[i]? = some m)
    {later : List (Nat × PoolStep)}
    (hr : (p.run ((i, .copy) :: later)).1.registries[i]? = some r)
    (hr' : (p.run ((i, .copy) :: later)).1.registries[p.registries.length]? = some r') :
    m.Evolves r ∧ m.Evolves r' := by
  have hi : i < p.registries.length := (List.getElem?_eq_some_iff.mp hm).1
  have hstep : (p.step i .copy).1.registries = p.registries ++ [m] := by
    rw [step_of_some hm]
    rfl
  have hsource : (p.step i .copy).1.registries[i]? = some m := by
    rw [hstep, List.getElem?_append_left hi, hm]
  have hcopy : (p.step i .copy).1.registries[p.registries.length]? = some m := by
    rw [hstep]
    exact List.getElem?_concat_length
  obtain ⟨r₁, hr₁, hevolves⟩ := evolves_run hsource later
  obtain ⟨r₂, hr₂, hevolves'⟩ := evolves_run hcopy later
  obtain rfl : r₁ = r := Option.some.inj (hr₁.symm.trans hr)
  obtain rfl : r₂ = r' := Option.some.inj (hr₂.symm.trans hr')
  exact ⟨hevolves, hevolves'⟩

/-- A registry and its copy, after any run: what was listed before the copy has the same name in
both. Each `Honors` the identities of the other exactly if the names of one continue those of the
other, so in particular as long as only one of the two has listed new names. -/
theorem copies_honor_iff {before later : List (Nat × PoolStep)} {i : Nat} {m r r' : Registry}
    (hm : (start.run before).1.registries[i]? = some m)
    (hr : (start.run (before ++ (i, .copy) :: later)).1.registries[i]? = some r)
    (hr' : (start.run (before ++ (i, .copy) :: later)).1.registries[
      (start.run before).1.registries.length]? = some r')
    (hsize : r.size ≤ 2 ^ 32) (hsize' : r'.size ≤ 2 ^ 32) :
    (∀ text id, m.find? text = some id → r.name id = .ok text ∧ r'.name id = .ok text) ∧
    ((∀ text id, r.find? text = some id → r'.Honors id text) ∧
        (∀ text id, r'.find? text = some id → r.Honors id text) ↔
      r.names <+: r'.names ∨ r'.names <+: r.names) := by
  have hsound : r.Sound := sound_of_start hr
  have hsound' : r'.Sound := sound_of_start hr'
  rw [run_append] at hr hr'
  obtain ⟨hevolves, hevolves'⟩ := evolves_of_copy hm hr hr'
  have htag : r'.tag = r.tag := hevolves'.tag_eq.trans hevolves.tag_eq.symm
  refine ⟨fun text id h => ?_, ?_, fun h => ⟨fun text id hfind => ?_, fun text id hfind => ?_⟩⟩
  · have hm' : m.Sound := sound_of_start hm
    exact ⟨Registry.name_of_find? hsize (hevolves.find?_eq_some hm' h),
      Registry.name_of_find? hsize' (hevolves'.find?_eq_some hm' h)⟩
  · rintro ⟨h, h'⟩
    -- the shorter list is continued by the longer one
    rcases Nat.le_total r.size r'.size with hle | hle
    · exact Or.inl (hsound.isPrefix_of_honors hsound' htag hsize hle h)
    · exact Or.inr (hsound'.isPrefix_of_honors hsound htag.symm hsize' hle h')
  · exact hsound'.honors_of_comparable hsize h hfind
  · exact hsound.honors_of_comparable hsize' h.symm hfind

/-- If only the source lists a new name after the copy, the copy refuses its identity, and names
what was listed before. -/
theorem copies_honor_iff_source :
    ∃ r', (start.run ([(0, .intern "GL_VENDOR_x")] ++ (0, .copy) ::
        [(0, .intern "GL_VENDOR_y")])).1.registries[1]? = some r' ∧
      r'.name ⟨79, 1⟩ = .ok "GL_VENDOR_x" ∧ r'.Honors ⟨80, 1⟩ "GL_VENDOR_y" := by
  have hsize := Registry.size_intern_le (Registry.fresh 1) "GL_VENDOR_x"
  have hsize' := Registry.size_intern_le ((Registry.fresh 1).intern "GL_VENDOR_x").1 "GL_VENDOR_y"
  have hfresh : (Registry.fresh 1).size = 79 := rfl
  obtain ⟨hnamed, hhonor⟩ := @copies_honor_iff [(0, .intern "GL_VENDOR_x")]
    [(0, .intern "GL_VENDOR_y")] 0 ((Registry.fresh 1).intern "GL_VENDOR_x").1
    (((Registry.fresh 1).intern "GL_VENDOR_x").1.intern "GL_VENDOR_y").1
    ((Registry.fresh 1).intern "GL_VENDOR_x").1 rfl rfl rfl (by omega) (by omega)
  have hlisted : Registry.Change ((Registry.fresh 1).intern "GL_VENDOR_x").1
      (((Registry.fresh 1).intern "GL_VENDOR_x").1.intern "GL_VENDOR_y").1 := .intern _ _
  obtain ⟨hhonored, -⟩ := hhonor.mpr (Or.inr hlisted.names_prefix)
  exact ⟨_, rfl, (hnamed "GL_VENDOR_x" ⟨79, 1⟩ (by decide +kernel)).2,
    hhonored "GL_VENDOR_y" ⟨80, 1⟩ (by decide +kernel)⟩

/-- A registry and its copy list a new name each: the identity that the one gives out for its name
is taken by the other for the other name, and sets its behavior. -/
theorem copies_alias :
    ∃ r r', (start.run [(0, .copy), (0, .intern "GL_VENDOR_a"), (1, .intern "GL_VENDOR_b")]).1 =
        { registries := [r, r'], nextTag := 2 } ∧
      r.find? "GL_VENDOR_a" = some ⟨79, 1⟩ ∧ r'.name ⟨79, 1⟩ = .ok "GL_VENDOR_b" ∧
      ¬r'.Honors ⟨79, 1⟩ "GL_VENDOR_a" ∧
      ∃ s, r'.set ⟨79, 1⟩ .require = .ok s ∧ s.recorded "GL_VENDOR_b" = .require := by
  have hname : ((Registry.fresh 1).intern "GL_VENDOR_b").1.name ⟨79, 1⟩ = .ok "GL_VENDOR_b" := by
    decide +kernel
  have hsound : ((Registry.fresh 1).intern "GL_VENDOR_b").1.Sound :=
    (Registry.Change.intern _ _).evolves.sound (Registry.sound_fresh 1)
  obtain ⟨s, hset, hsets⟩ := Registry.exists_sets_of_name hsound.nodup hname .require
  refine ⟨((Registry.fresh 1).intern "GL_VENDOR_a").1,
    ((Registry.fresh 1).intern "GL_VENDOR_b").1, rfl, by decide +kernel, hname, ?_, s, hset, ?_⟩
  · rw [hsound.honors_iff]
    exact fun h => absurd (h _ hname) (by decide)
  · rw [hsets.recorded, if_pos (List.mem_singleton_self _)]

end Pool

end ShaderCompat
