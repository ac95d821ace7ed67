import Mathlib.Data.Fintype.EquivFin
import ShaderCompat.Proofs.Extension.Remarks
import ShaderCompat.Proofs.Session.Effect

/-!
# More names than an identity can tell apart

A registry may list any number of names, while the `index` of an identity is a word of 32 bits. The
place `2 ^ 32 + n` therefore has the number of the place `n`, and a name listed there is handed an
identity that stands for another extension (`Registry.intern_wrapped`). What a shader declares of
the name it declares of that extension (`Registry.Sound.behaviorOf_wrapped`).

A run can bring a checker there by `Step.intern` alone (`Session.exists_interned`). So the theorems
on runs that go by identities bound `Registry.size`, and each has an example beside it of what
becomes of it past the bound.
-/

namespace ShaderCompat

namespace Registry

variable {r : Registry} {e : Extension} {text : String}

/-- The identity given out for a new name at place `2 ^ 32 + e.index` has the number of `e.id`; only
the owner tells the two apart. -/
theorem intern_wrapped (hsize : r.size = 2 ^ 32 + e.index) (hnew : text ∉ r.names) :
    (r.intern text).2 = ⟨e.id.index, r.tag⟩ := by
  have hid : (r.intern text).2 = r.idAt r.size := by
    simp [intern, find?_eq_none_iff.mpr hnew]
  have hindex : UInt32.ofNat (2 ^ 32 + e.index) = UInt32.ofNat e.index := by
    refine UInt32.toNat_inj.mp ?_
    rw [UInt32.toNat_ofNat', UInt32.toNat_ofNat', Nat.add_mod_left]
  have hpast : ¬2 ^ 32 + e.index < Extension.all.length := by
    have hcatalog : Extension.all.length < 2 ^ 32 := by decide
    omega
  rw [hid, hsize, idAt, hindex, if_neg hpast]
  rfl

/-- The registry serves that identity, under the name of the extension. -/
theorem Sound.name_intern_wrapped (hr : r.Sound) (hsize : r.size = 2 ^ 32 + e.index)
    (hnew : text ∉ r.names) : (r.intern text).1.name (r.intern text).2 = .ok e.name := by
  have hsound : (r.intern text).1.Sound := (Change.intern r text).evolves.sound hr
  obtain ⟨-, hname⟩ := lookup_eq_ok_iff.mp (hsound.name_id e)
  refine lookup_eq_ok_iff.mpr ⟨?_, ?_⟩
  · rw [intern_wrapped hsize hnew, ← r.tag_intern text]
    simp [owns]
  · rw [intern_wrapped hsize hnew]
    exact hname

/-- A declaration on the new name is recorded for the extension `e`. -/
theorem Sound.behaviorOf_wrapped (hr : r.Sound) (hsize : r.size = 2 ^ 32 + e.index)
    (hnew : text ∉ r.names) (loc : Location) (b : Behavior) :
    (Directive.declare loc (r.intern text).2 b (r.intern text).1).registry.behaviorOf e.name =
      .ok b := by
  have hsound : (r.intern text).1.Sound := (Change.intern r text).evolves.sound hr
  have hevolves := (r.intern text).1.evolves_declare loc (r.intern text).2 b
  have hrecorded := hsound.behavior_declare (hr.name_intern_wrapped hsize hnew) loc b
  have hindex : (r.intern text).2.index = e.id.index := by rw [intern_wrapped hsize hnew]
  obtain ⟨-, hplace⟩ := lookup_eq_ok_iff.mp hrecorded
  rw [hindex] at hplace
  -- `e.id` stands at the same place, and every registry serves the catalog
  rw [behaviorOf, (hevolves.sound hsound).find?_name]
  exact lookup_eq_ok_iff.mpr ⟨rfl, hplace⟩

end Registry

namespace Session

variable {s : Session} {i : Nat} {c : Checker}

/-- After a directive on the name at place `2 ^ 32 + e.index` the extension `e` has its behavior. -/
theorem behaviorOf_next_wrapped (hr : c.registry.Sound) {e : Extension}
    (hsize : c.registry.size = 2 ^ 32 + e.index) {text keyword : String}
    (hnew : text ∉ c.registry.names) (htext : text ≠ Directive.everyExtension) {b : Behavior}
    (hkeyword : Behavior.ofKeyword? keyword = some b) (line : Int32) :
    (s.next c (.directive line text keyword)).registry.behaviorOf e.name = .ok b := by
  rw [next_registry, effect, Registry.registry_directive_of_ne hkeyword htext]
  exact hr.behaviorOf_wrapped hsize hnew _ b

/-- New names that are interned in a row are listed in that order. -/
theorem run_intern (hc : s.checkers[i]? = some c) {texts : List String}
    (htexts : (c.registry.names ++ texts).Nodup) :
    ∃ r, (s.run (texts.map fun text => (i, .intern text none))).1.checkers[i]? =
        some { c with registry := r } ∧
      r.names = c.registry.names ++ texts ∧ c.registry.Evolves r := by
  induction texts generalizing s c with
  | nil => exact ⟨c.registry, hc, (List.append_nil _).symm, Registry.Evolves.refl _⟩
  | cons text texts ih =>
    have hnew : text ∉ c.registry.names := fun h =>
      (List.nodup_append.mp htexts).2.2 text h text List.mem_cons_self rfl
    have hnames : (c.registry.intern text).1.names = c.registry.names ++ [text] :=
      Registry.names_intern_of_notMem hnew
    have hnext : (s.step i (.intern text none)).1.checkers[i]? =
        some { c with registry := (c.registry.intern text).1 } := by
      rw [step_checker hc]
      simp only [next, effect, adjust, Checker.absorb, Checker.receiveAll_map_log]
    obtain ⟨r, hr, hrnames, hevolves⟩ := ih hnext
      (show ((c.registry.intern text).1.names ++ texts).Nodup by
        rwa [hnames, List.append_assoc, List.singleton_append])
    refine ⟨r, hr, ?_, (Registry.Change.intern _ text).evolves.trans hevolves⟩
    rw [hrnames]
    show (c.registry.intern text).1.names ++ texts = _
    rw [hnames, List.append_assoc, List.singleton_append]

/-- There are as many new names as one likes. -/
theorem exists_new_names (names : List String) (n : Nat) :
    ∃ texts : List String, texts.length = n ∧ texts.Nodup ∧ ∀ text ∈ texts, text ∉ names := by
  obtain ⟨all, hnames, hcard⟩ :=
    Infinite.exists_superset_card_eq names.toFinset (names.toFinset.card + n)
      (Nat.le_add_right _ _)
  refine ⟨(all \ names.toFinset).toList, ?_, Finset.nodup_toList _, fun text htext hmem => ?_⟩
  · rw [Finset.length_toList, Finset.card_sdiff_of_subset hnames, hcard, Nat.add_sub_cancel_left]
  · exact (Finset.mem_sdiff.mp (Finset.mem_toList.mp htext)).2 (List.mem_toFinset.mpr hmem)

/-- A checker can be given names until it lists `n` of them, without a given new name. -/
theorem exists_interned (hc : s.checkers[i]? = some c) (hr : c.registry.Sound) {n : Nat}
    (hsize : c.registry.size ≤ n) {text : String} (hnew : text ∉ c.registry.names) :
    ∃ (texts : List String) (r : Registry),
      (s.run (texts.map fun name => (i, .intern name none))).1.checkers[i]? =
        some { c with registry := r } ∧
      r.Sound ∧ r.tag = c.registry.tag ∧ r.size = n ∧ text ∉ r.names := by
  obtain ⟨k, rfl⟩ := Nat.exists_eq_add_of_le hsize
  obtain ⟨texts, hlength, htexts, hdistinct⟩ := exists_new_names (text :: c.registry.names) k
  have hnodup : (c.registry.names ++ texts).Nodup :=
    List.nodup_append.mpr ⟨hr.nodup, htexts, fun name hname other hother heq =>
      hdistinct other hother (List.mem_cons_of_mem _ (heq ▸ hname))⟩
  obtain ⟨r, hrun, hnames, hevolves⟩ := run_intern hc hnodup
  refine ⟨texts, r, hrun, hevolves.sound hr, hevolves.tag_eq, ?_, ?_⟩
  · rw [Registry.size, hnames, List.length_append, hlength, Registry.size]
  · rw [hnames, List.mem_append]
    rintro (h | h)
    · exact hnew h
    · exact hdistinct text h List.mem_cons_self

end Session

end ShaderCompat
