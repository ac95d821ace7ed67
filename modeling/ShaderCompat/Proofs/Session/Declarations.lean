import ShaderCompat.Proofs.Extension.Recording
import ShaderCompat.Proofs.Reference
import ShaderCompat.Proofs.Session.Overflow

/-!
# A checker records a plain map

`Declarations` is what a shader has said of extensions, told by names alone: a behavior for every
name there is, all missing at first, and the names that were saved under a label. Each step changes
it in the plainest way (`Declarations.next`). The checker keeps the same in tables of places and
identities; `Describes` says that the two agree, and one step keeps it so. Over a whole run every
question about extensions is then answered from the map (`records_declarations`).
-/

namespace ShaderCompat

/-- What a shader has said of extensions: a `behavior` for each name there is, and the names
`saved`. -/
structure Declarations where
  behavior : String → Behavior := fun _ => .missing
  /-- The names of the identities saved under labels, newest first. -/
  saved : List (String × String) := []

namespace Declarations

/-- The name of the extension that a reference stands for, as far as `Session.resolve` knows an
identity. -/
def nameOf? (d : Declarations) : ExtensionRef → Option String
  | .known e => some e.name
  | .saved label => d.saved.lookup label
  | .exact id => id.known?.map Extension.name

/-- A behavior is declared for a name and for all that `Follows` from it. -/
def declare (d : Declarations) (text : String) (b : Behavior) : Declarations :=
  { d with behavior := fun x => if Follows text x then b else d.behavior x }

/-- A behavior is declared for everything that is not `missing`. -/
def declareAll (d : Declarations) (b : Behavior) : Declarations :=
  { d with behavior := fun x => if d.behavior x = .missing then .missing else b }

/-- A directive is read. What is rejected, for its keyword or for `all`, changes nothing. -/
def directive (d : Declarations) (text keyword : String) : Declarations :=
  match Behavior.ofKeyword? keyword with
  | none => d
  | some b =>
    if text = Directive.everyExtension then
      if b = .warn ∨ b = .disable then d.declareAll b else d
    else d.declare text b

/-- A step is taken. Most steps declare nothing. -/
def next (d : Declarations) : Step → Declarations
  | .beginUnit => { d with behavior := fun _ => .missing }
  | .directive _ text keyword => d.directive text keyword
  | .declare _ ref b =>
    match d.nameOf? ref with
    | some text => d.declare text b
    | none => d
  | .intern text (some label) => { d with saved := (label, text) :: d.saved }
  | _ => d

/-- Steps are taken in order, by `next`. -/
def after (d : Declarations) (steps : List Step) : Declarations := steps.foldl next d

end Declarations

/-- The answer to a `Query` about names when behaviors are given by names. -/
def Query.answerFrom (behavior : String → Behavior) : Query String → Finding
  | .behavior text | .behaviorOf text => .behavior (behavior text)
  | .nameOf text => .name text
  | .turnedOn text => .truth (behavior text).isTurnedOn
  | .anyTurnedOn texts => .truth (texts.any fun x => (behavior x).isTurnedOn)
  | .anyDeclared texts => .truth (texts.any fun x => (behavior x).isDeclared)

/-- A host declares an extension at a place it tells (`Place.at`), and by an identity of the catalog
or one it has saved. -/
def Step.IsTold : Step → Prop
  | .declare place ref _ =>
    (∃ loc, place = .at loc) ∧ ∀ id, ref = .exact id → ∃ e, id.known? = some e
  | _ => True

/-! ## Questions -/

namespace Registry

/-- The name of an identity, if the registry serves it, as `Registry.name` does. -/
def nameOf? (r : Registry) (id : ExtensionId) : Option String := (r.name id).toOption

/-- `Registry.nameOf?` is `Registry.name` where that does not refuse. -/
theorem nameOf?_eq_some_iff {r : Registry} {id : ExtensionId} {text : String} :
    r.nameOf? id = some text ↔ r.name id = .ok text := by
  rw [nameOf?]
  cases r.name id <;> simp [Except.toOption]

/-- Of served identities `anyTurnedOn` asks what is recorded for their names. -/
theorem anyTurnedOn_eq {r : Registry} (hr : r.names.Nodup) {ids : List ExtensionId}
    {texts : List String} (h : List.Forall₂ (fun id x => r.nameOf? id = some x) ids texts) :
    r.anyTurnedOn ids = .ok (texts.any fun x => (r.recorded x).isTurnedOn) := by
  induction h with
  | nil => rfl
  | @cons id text ids texts hname _ ih =>
    rw [anyTurnedOn, behavior_of_name hr (nameOf?_eq_some_iff.mp hname), ih, List.any_cons]
    show (if (r.recorded text).isTurnedOn then _ else _ : Except Refusal Bool) = _
    cases (r.recorded text).isTurnedOn <;> rfl

/-- And so does `anyDeclared`. -/
theorem anyDeclared_eq {r : Registry} (hr : r.names.Nodup) {ids : List ExtensionId}
    {texts : List String} (h : List.Forall₂ (fun id x => r.nameOf? id = some x) ids texts) :
    r.anyDeclared ids = .ok (texts.any fun x => (r.recorded x).isDeclared) := by
  induction h with
  | nil => rfl
  | @cons id text ids texts hname _ ih =>
    rw [anyDeclared, behavior_of_name hr (nameOf?_eq_some_iff.mp hname), ih, List.any_cons]
    show (if (r.recorded text).isDeclared then _ else _ : Except Refusal Bool) = _
    cases (r.recorded text).isDeclared <;> rfl

/-- Every question about identities that have names is answered by `Query.answerFrom` what is
recorded for the names. -/
theorem answer_eq_answerFrom {r : Registry} (hr : r.names.Nodup) (hsize : r.size ≤ 2 ^ 32)
    {q : Query ExtensionId} {q' : Query String} (h : q.resolve r.nameOf? = some q') :
    q.answer r = .ok (q'.answerFrom r.recorded) := by
  cases q with
  | behavior id =>
    obtain ⟨text, hname, rfl⟩ := Option.map_eq_some_iff.mp h
    rw [Query.answer, behavior_of_name hr (nameOf?_eq_some_iff.mp hname)]
    rfl
  | behaviorOf text =>
    obtain rfl : Query.behaviorOf text = q' := Option.some.inj h
    rw [Query.answer, behaviorOf_eq hr hsize]
    rfl
  | nameOf id =>
    obtain ⟨text, hname, rfl⟩ := Option.map_eq_some_iff.mp h
    rw [Query.answer, nameOf?_eq_some_iff.mp hname]
    rfl
  | turnedOn id =>
    obtain ⟨text, hname, rfl⟩ := Option.map_eq_some_iff.mp h
    rw [Query.answer, behavior_of_name hr (nameOf?_eq_some_iff.mp hname)]
    rfl
  | anyTurnedOn ids =>
    obtain ⟨texts, hnames, rfl⟩ := Option.map_eq_some_iff.mp h
    rw [Query.answer, anyTurnedOn_eq hr (forall₂_of_mapM hnames)]
    rfl
  | anyDeclared ids =>
    obtain ⟨texts, hnames, rfl⟩ := Option.map_eq_some_iff.mp h
    rw [Query.answer, anyDeclared_eq hr (forall₂_of_mapM hnames)]
    rfl

end Registry

/-- The registry `r` holds the declarations `d` after some steps with some replies: whatever a host
asks of extensions, it is told what the declarations say. -/
structure Declarations.Held (d : Declarations) (steps : List Step) (replies : List Reply)
    (r : Registry) : Prop where
  /-- A question about identities that have names is answered from the behaviors of the names. -/
  answers : ∀ (q : Query ExtensionId) (q' : Query String), q.resolve r.nameOf? = some q' →
    q.answer r = .ok (q'.answerFrom d.behavior)
  /-- What is listed as declared is what has a behavior other than `missing`, each name once. -/
  listing : ∃ slots, r.listing = .ok slots ∧ ((slots.map Prod.snd).map Slot.name).Nodup ∧
    ∀ slot, slot ∈ slots.map Prod.snd ↔
      d.behavior slot.name = slot.behavior ∧ slot.behavior ≠ .missing
  /-- The identities of the catalog have the names of its extensions. -/
  catalog : ∀ e : Extension, r.name e.id = .ok e.name
  /-- The identities given out on the way have the names they were given out for. -/
  interned : ∀ text label reply, (Step.intern text label, reply) ∈ steps.zip replies →
    ∃ id, reply.answer = .ok (.identity id) ∧ r.name id = .ok text

/-! ## One step -/

/-- A shader cannot write that an extension is missing. -/
theorem Behavior.ne_missing_of_keyword {keyword : String} {b : Behavior}
    (h : ofKeyword? keyword = some b) : b ≠ .missing := by
  obtain ⟨-, hb⟩ := Option.filter_eq_some_iff.mp h
  exact of_decide_eq_true hb

namespace Declarations

/-- The identities saved under labels are those that `find?` gives for the names saved under them.
-/
def NamesSaved (d : Declarations) (r : Registry) (saved : List (String × ExtensionId)) : Prop :=
  List.Forall₂ (fun p q => p.1 = q.1 ∧ r.find? q.2 = some p.2) saved d.saved

/-- A registry and saved identities stand for declarations: `recorded` is `behavior`, and the labels
are the same. -/
structure Describes (d : Declarations) (r : Registry) (saved : List (String × ExtensionId)) :
    Prop where
  sound : r.Sound
  behavior : ∀ x, r.recorded x = d.behavior x
  saved : d.NamesSaved r saved

/-- A label under which an identity was saved is one under which its name was. -/
theorem lookup_saved {r : Registry} {saved : List (String × ExtensionId)}
    {named : List (String × String)}
    (h : List.Forall₂ (fun p q => p.1 = q.1 ∧ r.find? q.2 = some p.2) saved named)
    (label : String) :
    Option.Rel (fun id text => r.find? text = some id) (saved.lookup label)
      (named.lookup label) := by
  induction h with
  | nil => exact Option.Rel.none
  | @cons p q saved named hpq _ ih =>
    obtain ⟨pl, id⟩ := p
    obtain ⟨ql, text⟩ := q
    obtain ⟨rfl, hfind⟩ : pl = ql ∧ r.find? text = some id := hpq
    rw [List.lookup_cons, List.lookup_cons]
    cases label == pl with
    | true => exact Option.Rel.some hfind
    | false => exact ih

/-- A reference that a host may declare by stands for the identity of the name that `nameOf?` gives
for it. -/
theorem Describes.resolve {d : Declarations} {r : Registry} {s : Session}
    (hd : d.Describes r s.saved) {ref : ExtensionRef}
    (href : ∀ id, ref = .exact id → ∃ e, id.known? = some e) :
    Option.Rel (fun id text => r.find? text = some id) (s.resolve ref) (d.nameOf? ref) := by
  cases ref with
  | known e => exact Option.Rel.some (hd.sound.find?_name e)
  | saved label => exact lookup_saved hd.saved label
  | exact id =>
    obtain ⟨e, he⟩ := href id rfl
    rw [nameOf?, he, Extension.eq_id_of_known? he]
    exact Option.Rel.some (hd.sound.find?_name e)

/-- A registry in which the names of `familyOf` were set has them declared. -/
theorem Describes.declare {d : Declarations} {r r' : Registry}
    (hd : ∀ x, r.recorded x = d.behavior x) {text : String} {b : Behavior}
    (h : r.Sets (familyOf text) b r') (x : String) :
    r'.recorded x = (d.declare text b).behavior x := by
  show r'.recorded x = if Follows text x then b else d.behavior x
  rw [h.recorded, hd]
  by_cases hx : Follows text x
  · rw [if_pos hx, if_pos (mem_familyOf_iff.mpr hx)]
  · rw [if_neg hx, if_neg (fun hmem => hx (mem_familyOf_iff.mp hmem))]

/-- `Directive.apply` has the effect on the registry that `Declarations.directive` has on the
declarations. -/
theorem Describes.directive {d : Declarations} {r : Registry} (hr : r.Sound)
    (hd : ∀ x, r.recorded x = d.behavior x) (loc : Location) (text keyword : String)
    (hsize : (Directive.apply loc text keyword r).registry.size ≤ 2 ^ 32) (x : String) :
    (Directive.apply loc text keyword r).registry.recorded x =
      (d.directive text keyword).behavior x := by
  cases hkeyword : Behavior.ofKeyword? keyword with
  | none =>
    rw [Directive.apply, Declarations.directive, hkeyword]
    exact hd x
  | some b =>
    by_cases htext : text = Directive.everyExtension
    · rw [Directive.apply, Declarations.directive, hkeyword]
      show (if text = Directive.everyExtension then _ else _ : Update).registry.recorded x =
        (if text = Directive.everyExtension then _ else _ : Declarations).behavior x
      rw [if_pos htext, if_pos htext]
      -- what may be said of all extensions is just what does not turn them on
      cases b with
      | missing => exact absurd rfl (Behavior.ne_missing_of_keyword hkeyword)
      | require | enable => exact hd x
      | warn | disable =>
        show (r.setDeclared _).recorded x = if d.behavior x = .missing then _ else _
        rw [Registry.recorded_setDeclared hr.nodup, hd]
    · rw [Registry.registry_directive_of_ne hkeyword htext] at hsize ⊢
      have hstep : r.Evolves (r.intern text).1 := (Registry.Change.intern r text).evolves
      have hdeclare := Registry.evolves_declare (r.intern text).1 loc (r.intern text).2 b
      obtain ⟨-, hsets⟩ := (hstep.sound hr).declare_sets (Nat.le_trans hdeclare.size_le hsize)
        (hr.find?_intern text) loc b
      have hintern : ∀ y, (r.intern text).1.recorded y = d.behavior y := fun y =>
        (Registry.recorded_intern hr.nodup text y).trans (hd y)
      rw [Declarations.directive, hkeyword]
      show _ = (if text = Directive.everyExtension then _ else _ : Declarations).behavior x
      rw [if_neg htext]
      exact Describes.declare hintern hsets x

end Declarations

namespace Session

/-- The `effect` of a step on the registry is one that it can have evolved by. -/
theorem evolves_effect (s : Session) (c : Checker) (st : Step) :
    c.registry.Evolves (s.effect c st).registry := by
  cases st with
  | check place feature k => rw [registry_effect_check]
  | report severity channel place reason token extra => rw [registry_effect_report]
  | beginUnit => exact (Registry.Change.reset c.registry).evolves
  | directive line text keyword => exact c.registry.evolves_directive _ text keyword
  | declare place ref b =>
    rw [effect]
    cases s.locate c place with
    | error e => rfl
    | ok loc =>
      cases s.resolve ref with
      | none => rfl
      | some id => exact c.registry.evolves_declare loc id b
  | intern text label => exact (Registry.Change.intern c.registry text).evolves
  | _ => rfl

/-- What is recorded after a step are the behaviors of `Declarations.next`. -/
theorem recorded_effect {s : Session} {c : Checker} {d : Declarations}
    (hd : d.Describes c.registry s.saved) {st : Step} (hst : st.IsTold)
    (hsize : (s.effect c st).registry.size ≤ 2 ^ 32) (x : String) :
    (s.effect c st).registry.recorded x = (d.next st).behavior x := by
  cases st with
  | check place feature k =>
    rw [registry_effect_check]
    exact hd.behavior x
  | report severity channel place reason token extra =>
    rw [registry_effect_report]
    exact hd.behavior x
  | beginUnit => exact Registry.recorded_reset hd.sound.nodup x
  | directive line text keyword =>
    exact Declarations.Describes.directive hd.sound hd.behavior _ text keyword hsize x
  | declare place ref b =>
    obtain ⟨⟨loc, rfl⟩, href⟩ := hst
    have hrel := hd.resolve href
    have hown : c.registry.size ≤ 2 ^ 32 := Nat.le_trans (s.evolves_effect c _).size_le hsize
    simp only [effect, locate, Declarations.next]
    generalize s.resolve ref = id? at hrel ⊢
    generalize d.nameOf? ref = text? at hrel ⊢
    cases hrel with
    | none => exact hd.behavior x
    | some hfind =>
      obtain ⟨-, hsets⟩ := hd.sound.declare_sets hown hfind loc b
      exact Declarations.Describes.declare hd.behavior hsets x
  | intern text label =>
    refine (Registry.recorded_intern hd.sound.nodup text x).trans ?_
    rw [hd.behavior]
    cases label <;> rfl
  | _ => exact hd.behavior x

/-- The identities saved after a step are those of the names saved after it (`NamesSaved`). -/
theorem saved_share {s : Session} {c : Checker} {d : Declarations} (hr : c.registry.Sound)
    (hd : d.NamesSaved c.registry s.saved) (st : Step) :
    (d.next st).NamesSaved (s.effect c st).registry (s.share c st).saved := by
  have hkept : d.NamesSaved (s.effect c st).registry s.saved :=
    hd.imp fun p q hpq => ⟨hpq.1, (s.evolves_effect c st).find?_eq_some hr hpq.2⟩
  cases st with
  | directive line text keyword =>
    have hsaved : (d.directive text keyword).saved = d.saved := by
      unfold Declarations.directive
      split
      · rfl
      · split
        · split <;> rfl
        · rfl
    show List.Forall₂ _ s.saved (d.directive text keyword).saved
    rw [hsaved]
    exact hkept
  | declare place ref b =>
    have hsaved : (d.next (.declare place ref b)).saved = d.saved := by
      rw [Declarations.next]
      cases d.nameOf? ref <;> rfl
    rw [Declarations.NamesSaved, hsaved]
    exact hkept
  | intern text label =>
    cases label with
    | none => exact hkept
    | some label => exact List.Forall₂.cons ⟨rfl, hr.find?_intern text⟩ hkept
  | move m =>
    rw [share]
    cases c.cursor <;> exact hkept
  | _ => exact hkept

/-- One step: registry and saved identities stand for `Declarations.next`. -/
theorem describes_next {s : Session} {c : Checker} {d : Declarations}
    (hd : d.Describes c.registry s.saved) {st : Step} (hst : st.IsTold)
    (hsize : (s.effect c st).registry.size ≤ 2 ^ 32) :
    (d.next st).Describes (s.effect c st).registry (s.share c st).saved :=
  ⟨(s.evolves_effect c st).sound hd.sound, recorded_effect hd hst hsize,
    saved_share hd.sound hd.saved st⟩

/-! ## Runs -/

/-- A run of a session with one checker ends in a session of that checker, whose registry has only
evolved (`Evolves`). -/
theorem run_solo {s : Session} {c : Checker} (hs : s.checkers = [c]) (steps : List Step) :
    ∃ c', (s.run (steps.map (0, ·))).1.checkers = [c'] ∧ c.registry.Evolves c'.registry := by
  induction steps generalizing s c with
  | nil => exact ⟨c, hs, Registry.Evolves.refl _⟩
  | cons st rest ih =>
    obtain ⟨c', hc', hevolves⟩ := ih (step_solo hs st).1
    rw [next_registry] at hevolves
    exact ⟨c', hc', (s.evolves_effect c st).trans hevolves⟩

/-- The one checker of a session can be given names until it lists `n` of them, without a given new
name. -/
theorem exists_interned_solo {s : Session} {c : Checker} (hs : s.checkers = [c])
    (hr : c.registry.Sound) {n : Nat} (hsize : c.registry.size ≤ n) {text : String}
    (hnew : text ∉ c.registry.names) :
    ∃ (texts : List String) (r : Registry),
      (s.run ((texts.map fun name => .intern name none).map (0, ·))).1.checkers =
        [{ c with registry := r }] ∧
      r.Sound ∧ r.tag = c.registry.tag ∧ r.size = n ∧ text ∉ r.names := by
  have hfirst : s.checkers[0]? = some c := by
    rw [hs]
    rfl
  obtain ⟨texts, r, hrun, hkept⟩ := exists_interned hfirst hr hsize hnew
  obtain ⟨c', hc', -⟩ := run_solo hs (texts.map fun name => .intern name none)
  refine ⟨texts, r, ?_, hkept⟩
  rw [List.map_map] at hc' ⊢
  have hsame : [c'][0]? = some { c with registry := r } := hc' ▸ hrun
  rw [hc', Option.some.inj hsame]

/-- A whole run: at its end registry and saved identities stand for `Declarations.after` the steps.
-/
theorem describes_run {s : Session} {c c' : Checker} {d : Declarations} (hs : s.checkers = [c])
    (hd : d.Describes c.registry s.saved) {steps : List Step} (hsteps : ∀ st ∈ steps, st.IsTold)
    (hc' : (s.run (steps.map (0, ·))).1.checkers = [c']) (hsize : c'.registry.size ≤ 2 ^ 32) :
    (d.after steps).Describes c'.registry (s.run (steps.map (0, ·))).1.saved := by
  -- a step of the run is within the bound because registries only grow
  induction steps generalizing s c d with
  | nil =>
    obtain rfl : c = c' := List.singleton_inj.mp (hs.symm.trans hc')
    exact hd
  | cons st rest ih =>
    obtain ⟨hst, hrest⟩ := List.forall_mem_cons.mp hsteps
    obtain ⟨hnext, hsaved⟩ := step_solo hs st
    -- names are never dropped, so they were few enough at every step
    obtain ⟨last, hlast, hevolves⟩ := run_solo hnext rest
    obtain rfl : last = c' := List.singleton_inj.mp (hlast.symm.trans hc')
    have hafter : (d.next st).Describes (s.next c st).registry (s.step 0 st).1.saved := by
      rw [next_registry] at hevolves ⊢
      rw [hsaved]
      exact describes_next hd hst (Nat.le_trans hevolves.size_le hsize)
    exact ih hnext hafter hrest hc'

/-- Every name that a run interns is found by `find?`, at the end, under the identity that the run
was given for it. -/
theorem find?_of_intern_mem {s : Session} {c c' : Checker} (hs : s.checkers = [c])
    (hr : c.registry.Sound) {steps : List Step}
    (hc' : (s.run (steps.map (0, ·))).1.checkers = [c']) {text : String} {label : Option String}
    {reply : Reply}
    (hmem : (Step.intern text label, reply) ∈ steps.zip (s.run (steps.map (0, ·))).2) :
    ∃ id, reply.answer = .ok (.identity id) ∧ c'.registry.find? text = some id := by
  induction steps generalizing s c with
  | nil => exact absurd hmem List.not_mem_nil
  | cons st rest ih =>
    have hnext := (step_solo hs st).1
    have hsound : (s.next c st).registry.Sound := by
      rw [next_registry]
      exact (s.evolves_effect c st).sound hr
    rw [List.map_cons, run_cons, List.zip_cons_cons] at hmem
    rcases List.mem_cons.mp hmem with hhead | htail
    · obtain ⟨rfl, hreply⟩ := Prod.mk.inj hhead
      obtain ⟨last, hlast, hevolves⟩ := run_solo hnext rest
      obtain rfl : last = c' := List.singleton_inj.mp (hlast.symm.trans hc')
      refine ⟨(c.registry.intern text).2, ?_, hevolves.find?_eq_some hsound ?_⟩
      · rw [hreply, step_eq_stepWith (c := c) (by rw [hs]; rfl)]
        cases label <;> rfl
      · rw [next_registry]
        exact hr.find?_intern text
    · exact ih hnext hsound hc' htail

/-- Over every run of a checker that starts with nothing declared, whatever else the run does, its
registry holds `Declarations.after` the steps of the run, as long as `Registry.size` is at most
`2 ^ 32`, so that identities can tell all the listed names apart. -/
theorem records_declarations {s : Session} {c : Checker} {tag : UInt32} (hs : s.checkers = [c])
    (hsaved : s.saved = []) (hfresh : c.registry = .fresh tag) {steps : List Step}
    (hsteps : ∀ st ∈ steps, st.IsTold) :
    ∃ c', (s.run (steps.map (0, ·))).1.checkers = [c'] ∧
      (c'.registry.size ≤ 2 ^ 32 →
        (({} : Declarations).after steps).Held steps (s.run (steps.map (0, ·))).2 c'.registry) := by
  have hr : c.registry.Sound := by
    rw [hfresh]
    exact Registry.sound_fresh tag
  have hd : ({} : Declarations).Describes c.registry s.saved := by
    rw [hsaved, hfresh]
    exact ⟨Registry.sound_fresh tag, Registry.recorded_fresh tag, List.Forall₂.nil⟩
  obtain ⟨c', hc', -⟩ := run_solo hs steps
  refine ⟨c', hc', fun hsize => ?_⟩
  have hend := describes_run hs hd hsteps hc' hsize
  have hmap : c'.registry.recorded = (({} : Declarations).after steps).behavior :=
    funext hend.behavior
  exact {
    answers := fun q q' hq => hmap ▸ Registry.answer_eq_answerFrom hend.sound.nodup hsize hq
    listing := by
      refine ⟨_, Registry.listing_eq hsize, Registry.nodup_declared hend.sound.nodup, ?_⟩
      intro slot
      have hdecl : slot.behavior.isDeclared = true ↔ slot.behavior ≠ .missing := by
        cases slot.behavior <;> decide
      rw [← hmap, ← hdecl]
      exact Registry.mem_declared_iff hend.sound.nodup
    catalog := hend.sound.name_id
    interned := by
      intro text label reply hmem
      obtain ⟨id, hanswer, hfind⟩ := find?_of_intern_mem hs hr hc' hmem
      exact ⟨id, hanswer, Registry.name_of_find? hsize hfind⟩ }

/-- What an umbrella extension implies is among all that a later directive overrules. -/
theorem records_declarations_umbrella :
    ∃ c', (Session.run { checkers := [.start {} 1 .tracing] }
        [(0, .directive 1 "GL_ANDROID_extension_pack_es31a" "enable"),
          (0, .directive 2 "all" "warn")]).1.checkers = [c'] ∧
      (Query.turnedOn Extension.oesSampleVariables.id).answer c'.registry = .ok (.truth false) ∧
      (Query.behaviorOf "GL_OES_sample_variables").answer c'.registry = .ok (.behavior .warn) ∧
      (Query.behaviorOf "GL_EXT_frag_depth").answer c'.registry = .ok (.behavior .missing) := by
  have hsteps : ∀ st ∈ [Step.directive 1 "GL_ANDROID_extension_pack_es31a" "enable",
      Step.directive 2 "all" "warn"], st.IsTold := by simp [Step.IsTold]
  obtain ⟨c', hc', hmap⟩ :=
    records_declarations (s := { checkers := [.start {} 1 .tracing] }) rfl rfl rfl hsteps
  have hsize : c'.registry.size ≤ 2 ^ 32 := by
    have hall : (Session.run { checkers := [.start {} 1 .tracing] }
        [(0, .directive 1 "GL_ANDROID_extension_pack_es31a" "enable"),
          (0, .directive 2 "all" "warn")]).1.checkers.all (fun c => c.registry.size ≤ 2 ^ 32) =
            true := by decide +kernel
    simp only [List.map_cons, List.map_nil] at hc'
    rw [hc'] at hall
    simpa using hall
  have hheld := hmap hsize
  refine ⟨c', hc', (hheld.answers _ (.turnedOn "GL_OES_sample_variables") ?_).trans ?_,
    (hheld.answers _ _ rfl).trans ?_, (hheld.answers _ _ rfl).trans ?_⟩
  · exact congrArg (Option.map Query.turnedOn)
      (Registry.nameOf?_eq_some_iff.mpr (hheld.catalog .oesSampleVariables))
  · exact congrArg Except.ok (by decide +kernel)
  · exact congrArg Except.ok (by decide +kernel)
  · exact congrArg Except.ok (by decide +kernel)

/-- Interning names declares nothing. -/
theorem after_interns (texts : List String) :
    ({} : Declarations).after (texts.map fun text => .intern text none) = {} := by
  induction texts with
  | nil => rfl
  | cons text rest ih => exact ih

/-- Past the bound the registry and the declarations go apart: a checker lists `2 ^ 32` names and is
then told of one more, and it takes the first extension of the catalog to be enabled. -/
theorem declarations_misread :
    ∃ steps c', (∀ st ∈ steps, st.IsTold) ∧
      (Session.run { checkers := [.start {} 1 .tracing] } (steps.map (0, ·))).1.checkers = [c'] ∧
      (Query.behaviorOf "GL_OES_texture_3D").answer c'.registry = .ok (.behavior .enable) ∧
      (({} : Declarations).after steps).behavior "GL_OES_texture_3D" = .missing := by
  obtain ⟨texts, r, hc, hsound, -, hsize, hnew⟩ :=
    exists_interned_solo (s := { checkers := [.start {} 1 .tracing] }) rfl (Registry.sound_fresh 1)
      (n := 2 ^ 32 + Extension.oesTexture3D.index) (by decide +kernel)
      (show "GL_VENDOR_x" ∉ _ by decide +kernel)
  have hend := (step_solo hc (.directive 1 "GL_VENDOR_x" "enable")).1
  refine ⟨(texts.map fun text => .intern text none) ++ [.directive 1 "GL_VENDOR_x" "enable"], _,
    ?_, (congrArg checkers ?_).trans hend, ?_, ?_⟩
  · intro st hst
    rcases List.mem_append.mp hst with hintern | hdirective
    · obtain ⟨text, -, rfl⟩ := List.mem_map.mp hintern
      trivial
    · exact List.mem_singleton.mp hdirective ▸ trivial
  · rw [List.map_append, run_append]
    rfl
  · -- the directive is for the name at place `2 ^ 32`, which has the number of the extension
    exact congrArg (Except.map Finding.behavior) (behaviorOf_next_wrapped (e := .oesTexture3D)
      (b := .enable) hsound hsize hnew (by decide) (by decide) 1)
  · rw [Declarations.after, List.foldl_append]
    show ((({} : Declarations).after (texts.map fun text => .intern text none)).directive
      "GL_VENDOR_x" "enable").behavior _ = _
    rw [after_interns]
    decide +kernel

end Session

end ShaderCompat
