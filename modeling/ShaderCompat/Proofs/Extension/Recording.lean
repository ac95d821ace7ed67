import ShaderCompat.Directive
import ShaderCompat.Proofs.Extension.Implication
import ShaderCompat.Proofs.Outcome

/-!
# What a registry has recorded

Seen from outside a registry is a map from names to behaviors, in which a name that is not listed is
missing. `recorded` is that map. The operations on the tables, with their places and identities, act
on it as one would expect of a map, and a directive for a name sets exactly the names that `Follows`
says it reaches.
-/

namespace ShaderCompat

/-- No known extension has the name `all`, which stands for every extension. -/
theorem Extension.name_ne_everyExtension (e : Extension) : e.name ≠ Directive.everyExtension := by
  have hnames : Directive.everyExtension ∉ all.map name := by decide +kernel
  exact fun h => hnames (h ▸ List.mem_map_of_mem e.mem_all)

/-- A directive that is not about `all` takes its name in and declares it. -/
theorem Directive.apply_of_ne {text keyword : String} {b : Behavior}
    (hkeyword : Behavior.ofKeyword? keyword = some b) (htext : text ≠ everyExtension)
    (loc : Location) (r : Registry) :
    apply loc text keyword r =
      Update.andThen ⟨(r.intern text).1, (r.internEvents text).map .log, .ok ()⟩
        (declare loc (r.intern text).2 b) := by
  rw [apply, hkeyword]
  show (if text = everyExtension then _ else _ : Update) = _
  rw [if_neg htext]

namespace Registry

/-- The behavior recorded for a name; a name that is not listed is `missing`. -/
def recorded (r : Registry) (text : String) : Behavior :=
  ((r.names.idxOf? text).bind fun place => r.behaviors[place]?).getD .missing

/-- A listed name stands at some place, and has a behavior there. -/
theorem exists_place_of_mem {r : Registry} {text : String} (h : text ∈ r.names) :
    ∃ (place : Nat) (b : Behavior),
      r.names[place]? = some text ∧ r.behaviors[place]? = some b := by
  obtain ⟨place, hplace⟩ := List.mem_iff_getElem?.mp h
  have hlt : place < r.behaviors.length := by
    rw [r.aligned]
    exact (List.getElem?_eq_some_iff.mp hplace).1
  exact ⟨place, r.behaviors[place], hplace, List.getElem?_eq_getElem hlt⟩

/-- What stands in the two tables at one place is recorded. -/
theorem recorded_of_getElem? {r : Registry} (hr : r.names.Nodup) {place : Nat} {text : String}
    {b : Behavior} (hname : r.names[place]? = some text) (hb : r.behaviors[place]? = some b) :
    r.recorded text = b := by
  rw [recorded, idxOf?_of_getElem? hr hname, Option.bind_some, hb]
  rfl

/-- For a name that is not listed `recorded` is `missing`. -/
theorem recorded_of_notMem {r : Registry} {text : String} (h : text ∉ r.names) :
    r.recorded text = .missing := by
  rw [recorded, List.idxOf?_eq_none_iff.mpr h]
  rfl

/-- An identity has the behavior `recorded` for the name it has. -/
theorem behavior_of_name {r : Registry} (hr : r.names.Nodup) {id : ExtensionId} {text : String}
    (h : r.name id = .ok text) : r.behavior id = .ok (r.recorded text) := by
  obtain ⟨hown, hname⟩ := lookup_eq_ok_iff.mp h
  have hlt : id.index.toNat < r.behaviors.length := by
    rw [r.aligned]
    exact (List.getElem?_eq_some_iff.mp hname).1
  refine lookup_eq_ok_iff.mpr ⟨hown, ?_⟩
  rw [recorded_of_getElem? hr hname (List.getElem?_eq_getElem hlt)]
  exact List.getElem?_eq_getElem hlt

/-- An identity that `find?` gives for a text names the text. -/
theorem name_of_find? {r : Registry} (hsize : r.size ≤ 2 ^ 32) {text : String}
    {id : ExtensionId} (h : r.find? text = some id) : r.name id = .ok text := by
  obtain ⟨place, hplace, rfl⟩ := exists_place_of_find? h
  exact name_idAt (Nat.lt_of_lt_of_le (List.getElem?_eq_some_iff.mp hplace).1 hsize) hplace

/-- Asking `behaviorOf` the name of an extension always gets an answer. -/
theorem Sound.behaviorOf_name {r : Registry} (hr : r.Sound) (e : Extension) :
    r.behaviorOf e.name = .ok (r.recorded e.name) := by
  rw [behaviorOf, hr.find?_name]
  exact behavior_of_name hr.nodup (hr.name_id e)

/-- Asking by name always gets an answer, which is what is `recorded`. -/
theorem behaviorOf_eq {r : Registry} (hr : r.names.Nodup) (hsize : r.size ≤ 2 ^ 32)
    (text : String) : r.behaviorOf text = .ok (r.recorded text) := by
  rw [behaviorOf]
  cases h : r.find? text with
  | none =>
    rw [recorded_of_notMem (find?_eq_none_iff.mp h)]
  | some id => exact behavior_of_name hr (name_of_find? hsize h)

/-! ## Operations -/

/-- In a `fresh` registry everything is `missing`. -/
theorem recorded_fresh (tag : UInt32) (text : String) : (fresh tag).recorded text = .missing := by
  by_cases h : text ∈ (fresh tag).names
  · obtain ⟨place, b, hname, hb⟩ := exists_place_of_mem h
    rw [recorded_of_getElem? Extension.names_nodup hname hb]
    exact List.eq_of_mem_replicate (List.mem_of_getElem? hb)
  · exact recorded_of_notMem h

/-- After `reset` nothing is recorded. -/
theorem recorded_reset {r : Registry} (hr : r.names.Nodup) (text : String) :
    r.reset.recorded text = .missing := by
  by_cases h : text ∈ r.reset.names
  · obtain ⟨place, b, hname, hb⟩ := exists_place_of_mem h
    have hreset : r.reset.names.Nodup := hr
    rw [recorded_of_getElem? hreset hname hb]
    exact List.eq_of_mem_replicate (List.mem_of_getElem? hb)
  · exact recorded_of_notMem h

/-- `intern` records nothing. -/
theorem recorded_intern {r : Registry} (hr : r.names.Nodup) (new text : String) :
    (r.intern new).1.recorded text = r.recorded text := by
  by_cases hnew : new ∈ r.names
  · rw [intern_of_mem hnew]
  have hnames : (r.intern new).1.names = r.names ++ [new] := names_intern_of_notMem hnew
  have hbehaviors : (r.intern new).1.behaviors = r.behaviors ++ [.missing] := by
    simp [intern, find?_eq_none_iff.mpr hnew]
  have hnodup : (r.intern new).1.names.Nodup := (Change.intern r new).nodup hr
  -- a listed name keeps its place in both tables
  by_cases h : text ∈ r.names
  · obtain ⟨place, b, hname, hb⟩ := exists_place_of_mem h
    have hlt : place < r.behaviors.length := (List.getElem?_eq_some_iff.mp hb).1
    have hb' : (r.intern new).1.behaviors[place]? = some b := by
      rw [hbehaviors, List.getElem?_append_left hlt, hb]
    rw [recorded_of_getElem? hr hname hb]
    exact recorded_of_getElem? hnodup ((Change.intern r new).evolves.getElem?_names hname) hb'
  · rw [recorded_of_notMem h]
    by_cases htext : text = new
    · -- the name is new, and so is its slot
      have hname : (r.intern new).1.names[r.names.length]? = some text := by
        rw [hnames, htext]
        exact List.getElem?_concat_length
      refine recorded_of_getElem? hnodup hname ?_
      rw [hbehaviors, ← r.aligned]
      exact List.getElem?_concat_length
    · refine recorded_of_notMem ?_
      rw [hnames, List.mem_append, List.mem_singleton]
      exact fun hor => hor.elim h htext

/-- `setDeclared` records the behavior for every name that is not missing. -/
theorem recorded_setDeclared {r : Registry} (hr : r.names.Nodup) (b : Behavior) (text : String) :
    (r.setDeclared b).recorded text = if r.recorded text = .missing then .missing else b := by
  have hnodup : (r.setDeclared b).names.Nodup := hr
  by_cases h : text ∈ r.names
  · obtain ⟨place, old, hname, hold⟩ := exists_place_of_mem h
    have hnew : (r.setDeclared b).behaviors[place]? =
        some (if old.isDeclared then b else old) := by
      show (overwrite b r.behaviors).1[place]? = _
      rw [overwrite_eq, List.getElem?_map, hold, Option.map_some]
    rw [recorded_of_getElem? hnodup hname hnew, recorded_of_getElem? hr hname hold]
    cases old <;> rfl
  · have hnot : text ∉ (r.setDeclared b).names := h
    rw [recorded_of_notMem h, recorded_of_notMem hnot, if_pos rfl]

/-! ## Setting some names -/

/-- `r'` is `r` with the behavior `b` recorded for exactly the names `texts`. -/
structure Sets (r : Registry) (texts : List String) (b : Behavior) (r' : Registry) : Prop where
  evolves : r.Evolves r'
  names : r'.names = r.names
  recorded : ∀ x, r'.recorded x = if x ∈ texts then b else r.recorded x

/-- To set no names changes nothing. -/
theorem Sets.nil (r : Registry) (b : Behavior) : r.Sets [] b r :=
  ⟨Evolves.refl r, rfl, fun x => (if_neg (List.not_mem_nil (a := x))).symm⟩

/-- Names may be set in two lots. -/
theorem Sets.append {r r' r'' : Registry} {texts more : List String} {b : Behavior}
    (h : r.Sets texts b r') (h' : r'.Sets more b r'') : r.Sets (texts ++ more) b r'' := by
  refine ⟨h.evolves.trans h'.evolves, h'.names.trans h.names, fun x => ?_⟩
  rw [h'.recorded, h.recorded]
  by_cases hmore : x ∈ more
  · rw [if_pos hmore, if_pos (List.mem_append_right _ hmore)]
  · rw [if_neg hmore]
    by_cases htexts : x ∈ texts
    · rw [if_pos htexts, if_pos (List.mem_append_left _ htexts)]
    · have hnot : x ∉ texts ++ more := fun h => (List.mem_append.mp h).elim htexts hmore
      rw [if_neg htexts, if_neg hnot]

/-- Recording behaviors does not change what `find?` gives. -/
theorem Sets.find? {r r' : Registry} {texts : List String} {b : Behavior} (h : r.Sets texts b r')
    (x : String) : r'.find? x = r.find? x := by
  unfold Registry.find?
  rw [h.names, show r'.idAt = r.idAt from funext h.evolves.idAt_eq]

/-- Recording behaviors does not change what `name` gives. -/
theorem Sets.name {r r' : Registry} {texts : List String} {b : Behavior} (h : r.Sets texts b r')
    (id : ExtensionId) : r'.name id = r.name id := by
  rw [Registry.name, Registry.name, lookup, lookup, owns, owns, h.evolves.tag_eq, h.names]

/-- To `set` an identity sets its name, and no other. -/
theorem exists_sets_of_name {r : Registry} (hr : r.names.Nodup) {id : ExtensionId} {text : String}
    (h : r.name id = .ok text) (b : Behavior) :
    ∃ r', r.set id b = .ok r' ∧ r.Sets [text] b r' := by
  have hb : r.behavior id = .ok (r.recorded text) := behavior_of_name hr h
  obtain ⟨-, hplace⟩ := lookup_eq_ok_iff.mp h
  obtain ⟨-, hold⟩ := lookup_eq_ok_iff.mp hb
  have hset : ∃ r', r.set id b = .ok r' := by
    rw [set, hb]
    exact ⟨_, rfl⟩
  obtain ⟨r', hr'⟩ := hset
  obtain ⟨-, -, hnames, hbehaviors⟩ := set_eq_ok_iff.mp hr'
  have hnodup : r'.names.Nodup := hnames ▸ hr
  refine ⟨r', hr', (Change.set hr').evolves, hnames, fun x => ?_⟩
  by_cases hx : x = text
  · have hlt : id.index.toNat < r.behaviors.length := (List.getElem?_eq_some_iff.mp hold).1
    rw [if_pos (List.mem_singleton.mpr hx)]
    have hname : r'.names[id.index.toNat]? = some x := by rw [hnames, hplace, hx]
    refine recorded_of_getElem? hnodup hname ?_
    rw [hbehaviors, List.getElem?_set_self hlt]
  · rw [if_neg (fun hmem => hx (List.mem_singleton.mp hmem))]
    -- another name has another place, and what is not listed is missing before and after
    by_cases hmem : x ∈ r.names
    · obtain ⟨place, old, hname, hold'⟩ := exists_place_of_mem hmem
      have hne : id.index.toNat ≠ place := by
        rintro rfl
        exact hx (Option.some.inj (hname.symm.trans hplace))
      rw [recorded_of_getElem? hr hname hold']
      refine recorded_of_getElem? hnodup (hnames ▸ hname) ?_
      rw [hbehaviors, List.getElem?_set_ne hne, hold']
    · rw [recorded_of_notMem hmem, recorded_of_notMem (hnames ▸ hmem)]

/-! ## Directives -/

/-- `declareOne` gives a behavior to the name that an identity has. -/
theorem declareOne_sets {r : Registry} (hr : r.names.Nodup) {id : ExtensionId} {text : String}
    (h : r.name id = .ok text) (loc : Location) (b : Behavior) :
    (Directive.declareOne loc b id r).result = .ok () ∧
      r.Sets [text] b (Directive.declareOne loc b id r).registry := by
  obtain ⟨r', hset, hsets⟩ := exists_sets_of_name hr h b
  have hslot : r.slot id = .ok ⟨text, r.recorded text⟩ := by
    rw [slot, h, behavior_of_name hr h]
    rfl
  rw [Directive.declareOne, hslot, hset]
  exact ⟨rfl, hsets⟩

/-- Giving some identities a behavior, one after another, sets exactly the names they have. -/
theorem each_declareOne_sets {r : Registry} (hr : r.names.Nodup) {ids : List ExtensionId}
    {texts : List String} (h : List.Forall₂ (fun id x => r.name id = .ok x) ids texts)
    (loc : Location) (b : Behavior) :
    (Update.each (Directive.declareOne loc b) ids r).result = .ok () ∧
      r.Sets texts b (Update.each (Directive.declareOne loc b) ids r).registry := by
  induction ids generalizing r texts with
  | nil =>
    rw [List.forall₂_nil_left_iff.mp h]
    exact ⟨rfl, Sets.nil r b⟩
  | cons id ids ih =>
    obtain ⟨text, rest, hname, hrest, rfl⟩ := List.forall₂_cons_left_iff.mp h
    obtain ⟨hresult, hsets⟩ := declareOne_sets hr hname loc b
    -- the names are where they were, so the other identities still have theirs
    have hrest' : List.Forall₂
        (fun i x => (Directive.declareOne loc b id r).registry.name i = .ok x) ids rest :=
      hrest.imp fun i x hx => (hsets.name i).trans hx
    obtain ⟨hresult', hsets'⟩ := ih (hsets.names ▸ hr) hrest'
    rw [Update.each, Update.andThen, hresult]
    exact ⟨hresult', hsets.append hsets'⟩

/-- A declaration for the identity of a name sets the names that follow from that name (`familyOf`).
-/
theorem Sound.declare_sets {r : Registry} (hr : r.Sound) (hsize : r.size ≤ 2 ^ 32)
    {text : String} {id : ExtensionId} (h : r.find? text = some id) (loc : Location)
    (b : Behavior) :
    (Directive.declare loc id b r).result = .ok () ∧
      r.Sets (familyOf text) b (Directive.declare loc id b r).registry :=
  each_declareOne_sets hr.nodup
    ((hr.family_of_find? hsize h).imp fun _ _ hfind => name_of_find? hsize hfind) loc b

/-- Whatever a declaration reaches besides, the identity it is for has the behavior `b` after it. -/
theorem Sound.behavior_declare {r : Registry} (hr : r.Sound) {id : ExtensionId} {text : String}
    (h : r.name id = .ok text) (loc : Location) (b : Behavior) :
    (Directive.declare loc id b r).registry.behavior id = .ok b := by
  -- the identity is in its own family, and every member of the family has a name
  have hfamily : ∃ texts, List.Forall₂ (fun i x => r.name i = .ok x) id.family texts ∧
      text ∈ texts := by
    cases hknown : id.known? with
    | none =>
      rw [ExtensionId.family, hknown]
      exact ⟨[text], List.Forall₂.cons h List.Forall₂.nil, List.mem_singleton_self text⟩
    | some e =>
      rw [Extension.eq_id_of_known? hknown, hr.name_id] at h
      obtain rfl : e.name = text := Except.ok.inj h
      rw [ExtensionId.family, hknown]
      refine ⟨e.family.map Extension.name, ?_, List.mem_map_of_mem List.mem_cons_self⟩
      show List.Forall₂ _ (e.family.map Extension.id) (e.family.map Extension.name)
      rw [List.forall₂_map_left_iff, List.forall₂_map_right_iff, List.forall₂_same]
      exact fun f _ => hr.name_id f
  obtain ⟨texts, hnames, htext⟩ := hfamily
  have hsets : r.Sets texts b (Directive.declare loc id b r).registry :=
    (each_declareOne_sets hr.nodup hnames loc b).2
  rw [behavior_of_name (hsets.names ▸ hr.nodup) ((hsets.name id).trans h), hsets.recorded,
    if_pos htext]

/-- `declareOne` is a `Change`, or nothing. -/
theorem evolves_declareOne (r : Registry) (loc : Location) (b : Behavior) (id : ExtensionId) :
    r.Evolves (Directive.declareOne loc b id r).registry := by
  unfold Directive.declareOne
  cases r.slot id with
  | error e => rfl
  | ok slot =>
    cases hset : r.set id b with
    | error e => rfl
    | ok r' => exact (Change.set hset).evolves

/-- `declare` changes a registry by the operations that there are, even if it fails midway. -/
theorem evolves_declare (r : Registry) (loc : Location) (id : ExtensionId) (b : Behavior) :
    r.Evolves (Directive.declare loc id b r).registry := by
  unfold Directive.declare
  induction id.family generalizing r with
  | nil => rfl
  | cons i ids ih =>
    have hone : r.Evolves (Directive.declareOne loc b i r).registry := r.evolves_declareOne loc b i
    rw [Update.each, Update.andThen]
    cases (Directive.declareOne loc b i r).result with
    | error e => exact hone
    | ok _ => exact hone.trans (ih _)

/-- `declareOne` takes no name in. -/
theorem names_declareOne (r : Registry) (loc : Location) (b : Behavior) (id : ExtensionId) :
    (Directive.declareOne loc b id r).registry.names = r.names := by
  unfold Directive.declareOne
  cases r.slot id with
  | error e => rfl
  | ok slot =>
    cases hset : r.set id b with
    | error e => rfl
    | ok r' => exact (set_eq_ok_iff.mp hset).2.2.1

/-- `declare` takes no name in. -/
theorem names_declare (r : Registry) (loc : Location) (id : ExtensionId) (b : Behavior) :
    (Directive.declare loc id b r).registry.names = r.names := by
  unfold Directive.declare
  induction id.family generalizing r with
  | nil => rfl
  | cons i ids ih =>
    have hone := r.names_declareOne loc b i
    rw [Update.each, Update.andThen]
    cases (Directive.declareOne loc b i r).result with
    | error e => exact hone
    | ok _ => exact (ih _).trans hone

/-- What a directive on a name makes of a registry: `intern`, and then `declare`. -/
theorem registry_directive_of_ne {text keyword : String} {b : Behavior}
    (hkeyword : Behavior.ofKeyword? keyword = some b) (htext : text ≠ Directive.everyExtension)
    (loc : Location) (r : Registry) :
    (Directive.apply loc text keyword r).registry =
      (Directive.declare loc (r.intern text).2 b (r.intern text).1).registry := by
  rw [Directive.apply_of_ne hkeyword htext]
  rfl

/-- A directive changes a registry by the operations that there are, so that it `Evolves`. -/
theorem evolves_directive (r : Registry) (loc : Location) (text keyword : String) :
    r.Evolves (Directive.apply loc text keyword r).registry := by
  -- one without a keyword is dropped; the others are about all extensions or about a name
  cases hkeyword : Behavior.ofKeyword? keyword with
  | none =>
    rw [Directive.apply, hkeyword]
  | some b =>
    by_cases htext : text = Directive.everyExtension
    · rw [Directive.apply, hkeyword]
      show r.Evolves (if text = Directive.everyExtension then _ else _ : Update).registry
      rw [if_pos htext]
      cases b.isTurnedOn with
      | true => rfl
      | false => exact (Change.setDeclared r b).evolves
    · rw [registry_directive_of_ne hkeyword htext]
      exact (Change.intern r text).evolves.trans (evolves_declare _ loc _ b)

/-! ## Listing what is declared -/

/-- The declared slots, each with its place; `tracked` gives them by identity, and `listing` by
number. -/
def numbered (r : Registry) : List (Nat × Slot) :=
  (r.names.zip r.behaviors).zipIdx.filterMap fun ((name, b), place) =>
    if b.isDeclared then some (place, ⟨name, b⟩) else none

/-- The declared names, each with its behavior. -/
def declared (r : Registry) : List Slot := r.numbered.map Prod.snd

/-- A slot is `numbered` if it stands at its place and is declared there. -/
theorem mem_numbered_iff {r : Registry} {place : Nat} {slot : Slot} :
    (place, slot) ∈ r.numbered ↔ r.names[place]? = some slot.name ∧
      r.behaviors[place]? = some slot.behavior ∧ slot.behavior.isDeclared = true := by
  unfold numbered
  rw [List.mem_filterMap]
  constructor
  · rintro ⟨⟨⟨name, b⟩, place'⟩, hmem, hslot⟩
    obtain ⟨hname, hb⟩ := List.getElem?_zip_eq_some.mp (List.mem_zipIdx_iff_getElem?.mp hmem)
    change (if b.isDeclared then some (place', (⟨name, b⟩ : Slot)) else none) = _ at hslot
    by_cases hdecl : b.isDeclared = true
    · rw [if_pos hdecl, Option.some.injEq, Prod.mk.injEq] at hslot
      obtain ⟨rfl, rfl⟩ := hslot
      exact ⟨hname, hb, hdecl⟩
    · rw [if_neg hdecl] at hslot
      exact absurd hslot (by simp)
  · rintro ⟨hname, hb, hdecl⟩
    refine ⟨((slot.name, slot.behavior), place), ?_, if_pos hdecl⟩
    exact List.mem_zipIdx_iff_getElem?.mpr (List.getElem?_zip_eq_some.mpr ⟨hname, hb⟩)

/-- `tracked` has an identity and a behavior for each slot that is `numbered`. -/
theorem tracked_eq (r : Registry) :
    r.tracked = r.numbered.map fun x => (r.idAt x.1, x.2.behavior) := by
  have hbehaviors : r.behaviors = (r.names.zip r.behaviors).map Prod.snd :=
    (List.map_snd_zip (Nat.le_of_eq r.aligned)).symm
  rw [tracked, numbered, List.map_filterMap]
  conv_lhs => rw [hbehaviors, List.zipIdx_map, List.filterMap_map]
  refine List.filterMap_congr fun x _ => ?_
  obtain ⟨⟨name, b⟩, place⟩ := x
  show (if b.isDeclared then some (r.idAt place, b) else none) =
    (if b.isDeclared then some (place, (⟨name, b⟩ : Slot)) else none).map _
  cases b <;> rfl

/-- What `overwrite` counts is how many extensions are `tracked`. -/
theorem touched_eq (r : Registry) (b : Behavior) :
    (overwrite b r.behaviors).2 = r.tracked.length := by
  have hsome : ∀ x ∈ r.behaviors.zipIdx,
      (if x.1.isDeclared then some (r.idAt x.2, x.1) else none).isSome = true ↔
        x.1.isDeclared = true := by
    rintro ⟨old, place⟩ -
    cases old <;> simp [Behavior.isDeclared]
  -- the count is over the behaviors, the list over behaviors with their places
  calc (overwrite b r.behaviors).2
      = r.behaviors.countP Behavior.isDeclared := by rw [overwrite_eq]
    _ = (r.behaviors.zipIdx.map Prod.fst).countP Behavior.isDeclared := by
        rw [List.zipIdx_map_fst]
    _ = r.behaviors.zipIdx.countP (Behavior.isDeclared ∘ Prod.fst) := List.countP_map
    _ = r.tracked.length := by
        rw [tracked, List.length_filterMap_eq_countP]
        exact (List.countP_congr hsome).symm

/-- As long as the places fit an identity, a host is listed what is `numbered`: no number is another
name's. -/
theorem listing_eq {r : Registry} (hsize : r.size ≤ 2 ^ 32) : r.listing = .ok r.numbered := by
  rw [listing, tracked_eq, List.mapM_map]
  refine mapM_eq_ok_iff.mpr (List.forall₂_same.mpr fun x hx => ?_)
  obtain ⟨place, slot⟩ := x
  obtain ⟨hname, -, -⟩ := mem_numbered_iff.mp hx
  have hplace : place < 2 ^ 32 :=
    Nat.lt_of_lt_of_le (List.getElem?_eq_some_iff.mp hname).1 hsize
  show (do return ((r.idAt place).index.toNat, ⟨← r.name (r.idAt place), slot.behavior⟩) :
    Except Refusal (Nat × Slot)) = .ok (place, slot)
  rw [name_idAt hplace hname, r.index_idAt hplace]
  rfl

/-- What is listed as `declared` is what is `recorded`. -/
theorem mem_declared_iff {r : Registry} (hr : r.names.Nodup) {slot : Slot} :
    slot ∈ r.declared ↔
      r.recorded slot.name = slot.behavior ∧ slot.behavior.isDeclared = true := by
  rw [declared, List.mem_map]
  constructor
  · rintro ⟨⟨place, slot'⟩, hmem, rfl⟩
    obtain ⟨hname, hb, hdecl⟩ := mem_numbered_iff.mp hmem
    exact ⟨recorded_of_getElem? hr hname hb, hdecl⟩
  · rintro ⟨hrec, hdecl⟩
    have hlisted : slot.name ∈ r.names := by
      by_contra hnot
      rw [recorded_of_notMem hnot] at hrec
      rw [← hrec] at hdecl
      exact absurd hdecl (by decide)
    obtain ⟨place, b, hname, hb⟩ := exists_place_of_mem hlisted
    have hsame : b = slot.behavior := (recorded_of_getElem? hr hname hb).symm.trans hrec
    exact ⟨(place, slot), mem_numbered_iff.mpr ⟨hname, hsame ▸ hb, hdecl⟩, rfl⟩

/-- No name is listed as `declared` twice. -/
theorem nodup_declared {r : Registry} (hr : r.names.Nodup) : (r.declared.map Slot.name).Nodup := by
  have hnames : ((r.names.zip r.behaviors).zipIdx.map fun x => x.1.1) = r.names := by
    have hcomp : ((r.names.zip r.behaviors).zipIdx.map fun x => x.1.1) =
        ((r.names.zip r.behaviors).zipIdx.map Prod.fst).map Prod.fst := by
      rw [List.map_map]
      rfl
    rw [hcomp, List.zipIdx_map_fst, List.map_fst_zip (Nat.le_of_eq r.aligned.symm)]
  have hdeclared : r.declared.map Slot.name =
      ((r.names.zip r.behaviors).zipIdx.filter fun x => x.1.2.isDeclared).map fun x => x.1.1 := by
    rw [declared, List.map_map, numbered, List.map_filterMap, ← List.filterMap_eq_map',
      List.filterMap_filter]
    refine List.filterMap_congr fun x _ => ?_
    obtain ⟨⟨name, b⟩, place⟩ := x
    cases b <;> rfl
  -- the declared names are some of the listed ones, in their order
  rw [hdeclared]
  have hsub := (List.filter_sublist (p := fun x : (String × Behavior) × Nat => x.1.2.isDeclared)
    (l := (r.names.zip r.behaviors).zipIdx)).map fun x => x.1.1
  rw [hnames] at hsub
  exact hr.sublist hsub

end Registry

end ShaderCompat
