import Mathlib.Data.List.Perm.Subperm
import ShaderCompat.Proofs.Extension.Remarks
import ShaderCompat.Proofs.Gate.Congruence
import ShaderCompat.Proofs.Session.Declarations

/-!
# Sessions in step

Two sessions of one checker each are in step if the checkers agree in all but their registries, and
if one and the same `Declarations` describes both registries, each with the identities that were
saved in its own session. The registries may list their names in different order and give out
different identities. Steps that name extensions by text, by the catalog or by what was saved on the
way keep the sessions in step, and both reply the same (`Session.InStep.step`,
`Session.InStep.run`): there is no trace of an identity but in the log entry, and the answer, of a
name that is taken in.
-/

namespace ShaderCompat

/-- The reference is by the catalog or by a label, not by an identity that was given out before. -/
def ExtensionRef.IsNamed (ref : ExtensionRef) : Prop :=
  ∀ id, ref = .exact id → ∃ e, id.known? = some e

/-- All references of the step are by the catalog or by a label. -/
def Step.IsNamed : Step → Prop
  | .check _ _ k => ∀ ref ∈ k.ids, ref.IsNamed
  | .declare _ ref _ => ref.IsNamed
  | .ask q => ∀ ref ∈ q.ids, ref.IsNamed
  | _ => True

/-- The name that a step takes in, if it does. -/
def Step.taken? : Step → Option String
  | .intern name _ => some name
  | .directive _ name keyword =>
    if (Behavior.ofKeyword? keyword).isSome ∧ name ≠ Directive.everyExtension then some name
    else none
  | _ => none

/-! ## Registries that are described alike -/

namespace Registry

variable {r r' : Registry}

/-- The names of a sound registry are distinct, so `r'` has at most as many as `r` if all of them
are names of `r`. -/
theorem Sound.size_le_of_subset (hr : r'.Sound) (h : r'.names ⊆ r.names) : r'.size ≤ r.size :=
  (List.subperm_of_subset hr.nodup h).length_le

/-- The identity a name is found under, if it is found. -/
def idOf (r : Registry) (text : String) : ExtensionId := (r.find? text).getD (r.idAt 0)

/-- For the identities of one name two registries with the same records hold the same. -/
theorem Alike.sameAt (h : r.Alike r') (hsize : r.size ≤ 2 ^ 32) (hsize' : r'.size ≤ 2 ^ 32)
    {text : String} {id id' : ExtensionId} (hid : r.find? text = some id)
    (hid' : r'.find? text = some id') : r.SameAt r' id id' := by
  have hname : r.name id = .ok text := name_of_find? hsize hid
  have hname' : r'.name id' = .ok text := name_of_find? hsize' hid'
  refine ⟨hname'.trans hname.symm, ?_⟩
  rw [behavior_of_name h.sound'.nodup hname', behavior_of_name h.sound.nodup hname, h.recorded]

/-- `behaviorOf` goes by the text alone, so registries that are `Alike` answer it alike. -/
theorem Alike.behaviorOf_eq (h : r.Alike r') (hsize : r.size ≤ 2 ^ 32) (hsize' : r'.size ≤ 2 ^ 32)
    (text : String) : r'.behaviorOf text = r.behaviorOf text := by
  rw [Registry.behaviorOf_eq h.sound'.nodup hsize', Registry.behaviorOf_eq h.sound.nodup hsize,
    h.recorded]

end Registry

namespace Declarations

variable {d : Declarations} {r r' : Registry}

/-- Two registries that one `Declarations` describes are `Alike`, whatever was saved in their
sessions. -/
theorem Describes.alike {saved saved' : List (String × ExtensionId)} (h : d.Describes r saved)
    (h' : d.Describes r' saved') : r.Alike r' :=
  ⟨h.sound, h'.sound, fun x => (h'.behavior x).trans (h.behavior x).symm⟩

variable {s : Session}

/-- The name `nameOf?` gives for a named reference is in the registry, under `idOf`. -/
theorem Describes.find?_idOf (h : d.Describes r s.saved) {ref : ExtensionRef} (href : ref.IsNamed)
    {text : String} (htext : d.nameOf? ref = some text) : r.find? text = some (r.idOf text) := by
  have hrel := h.resolve href
  rw [htext] at hrel
  generalize s.resolve ref = id? at hrel
  cases hrel with
  | some hfind => rw [Registry.idOf, hfind, Option.getD_some]

/-- `Session.resolve` of a named reference is `idOf` of the name that `nameOf?` gives for it. -/
theorem Describes.resolve_eq (h : d.Describes r s.saved) {ref : ExtensionRef}
    (href : ref.IsNamed) : s.resolve ref = (d.nameOf? ref).map r.idOf := by
  have hrel := h.resolve href
  generalize s.resolve ref = id? at hrel ⊢
  generalize d.nameOf? ref = text? at hrel ⊢
  cases hrel with
  | none => rfl
  | some hfind => rw [Option.map_some, Registry.idOf, hfind, Option.getD_some]

/-- A `Check` of named references can be resolved to texts by `nameOf?`, and these turned into
identities by `idOf`. -/
theorem Describes.resolve_check (h : d.Describes r s.saved) {k : Check ExtensionRef}
    (hk : ∀ ref ∈ k.ids, ref.IsNamed) :
    k.resolve s.resolve = (k.resolve d.nameOf?).map (Check.map r.idOf) := by
  have hresolve : (k.map id).resolve s.resolve = (k.resolve d.nameOf?).map (Check.map r.idOf) :=
    Check.resolve_map fun ref href => h.resolve_eq (hk ref href)
  rwa [Check.map_id] at hresolve

/-- A `Query` of named references is resolved by way of the texts, as in `resolve_check`. -/
theorem Describes.resolve_query (h : d.Describes r s.saved) {q : Query ExtensionRef}
    (hq : ∀ ref ∈ q.ids, ref.IsNamed) :
    q.resolve s.resolve = (q.resolve d.nameOf?).map (Query.map r.idOf) := by
  have hresolve : (q.map id).resolve s.resolve = (q.resolve d.nameOf?).map (Query.map r.idOf) :=
    Query.resolve_map fun ref href => h.resolve_eq (hq ref href)
  rwa [Query.map_id] at hresolve

end Declarations

/-! ## Checkers in step -/

/-- Two checkers that agree but for their registries; the first is ahead by some errors. -/
structure Checker.InStep (ahead : Nat) (c c' : Checker) : Prop where
  options : c'.options = c.options
  cursor : c'.cursor = c.cursor
  sink : c'.sink = c.sink
  errors : c.errors = ahead + c'.errors

/-- Up to the entries of `isInterning`, what `logged` makes of the signals is what it makes of those
that `remarked` keeps. -/
theorem Checker.events_remarked (c : Checker) (signals : List Signal) :
    (signals.flatMap c.logged).filter (fun e => !e.isInterning) =
      (remarked signals).flatMap fun s => (c.logged s).filter fun e => !e.isInterning := by
  rw [List.filter_flatMap]
  induction signals with
  | nil => rfl
  | cons signal rest ih =>
    rw [List.flatMap_cons, ih, remarked_cons]
    by_cases hs : signal.isInterning = true
    · have hnothing : (c.logged signal).filter (fun e => !e.isInterning) = [] := by
        cases signal with
        | report d => exact absurd hs Bool.false_ne_true
        | log event =>
          have hevent : event.isInterning = true := hs
          rw [Checker.logged, List.filter_cons, hevent]
          rfl
      rw [if_pos hs, hnothing, List.nil_append]
    · rw [if_neg hs, List.flatMap_cons]

/-- `absorb` keeps checkers in step if the two updates agree up to the entries of names taken in. -/
theorem Checker.InStep.absorb {ahead : Nat} {c c' : Checker} (h : c.InStep ahead c')
    {u u' : Update} (hsignals : remarked u'.signals = remarked u.signals) :
    (c.absorb u).1.InStep ahead (c'.absorb u').1 ∧
      (c'.absorb u').2.delivered = (c.absorb u).2.delivered ∧
      (c'.absorb u').2.events.filter (fun e => !e.isInterning) =
        (c.absorb u).2.events.filter fun e => !e.isInterning := by
  have hreports : ShaderCompat.reports u'.signals = ShaderCompat.reports u.signals := by
    rw [← reports_remarked, hsignals, reports_remarked]
  have hdelivers : ({ c' with registry := u'.registry } : Checker).delivers =
      ({ c with registry := u.registry } : Checker).delivers := by
    funext d
    rw [delivers, delivers, h.options]
  have hlogged : ({ c' with registry := u'.registry } : Checker).logged =
      ({ c with registry := u.registry } : Checker).logged := by
    funext signal
    cases signal with
    | log event => rfl
    | report d => rw [logged, logged, hdelivers, h.sink]
  refine ⟨?_, ?_, ?_⟩
  · rw [Checker.absorb, Checker.absorb, receiveAll_checker, receiveAll_checker]
    refine ⟨h.options, h.cursor, ?_, ?_⟩
    · show c'.sink.acceptAll _ = c.sink.acceptAll _
      rw [hreports, hdelivers, h.sink]
    · show c.errors + _ = ahead + (c'.errors + _)
      rw [hreports, h.errors, Nat.add_assoc]
  · rw [Checker.absorb, Checker.absorb, receiveAll_delivered, receiveAll_delivered, hreports,
      hdelivers]
  · rw [Checker.absorb, Checker.absorb, receiveAll_events, receiveAll_events, events_remarked,
      events_remarked, hsignals, hlogged]

namespace Session

/-- Two sessions of a checker each, with the same cursors. The checkers are in step, the second has
listed no name that the first has not, and one map describes what both have recorded and saved. -/
structure InStep (ahead : Nat) (s s' : Session) (c c' : Checker) : Prop where
  checkers : s.checkers = [c]
  checkers' : s'.checkers = [c']
  cursors : s'.cursors = s.cursors
  inStep : c.InStep ahead c'
  names : c'.registry.names ⊆ c.registry.names
  described : ∃ d : Declarations, d.Describes c.registry s.saved ∧ d.Describes c'.registry s'.saved

variable {ahead : Nat} {s s' : Session} {c c' : Checker}

/-! ## Cursors -/

/-- The same cursor is `attached` in both sessions. -/
theorem InStep.attached_eq (h : InStep ahead s s' c c') : s'.attached c' = s.attached c := by
  rw [attached, attached, h.cursors, h.inStep.cursor]

/-- A `Place` is located alike in both sessions. -/
theorem InStep.locate_eq (h : InStep ahead s s' c c') (place : Place) :
    s'.locate c' place = s.locate c place := by
  cases place with
  | «at» loc => rfl
  | current =>
    rw [locate, locate, currentLocation, currentLocation, h.attached_eq]

/-- A directive is placed alike in both sessions. -/
theorem InStep.directiveLocation_eq (h : InStep ahead s s' c c') (line : Int32) :
    s'.directiveLocation c' line = s.directiveLocation c line := by
  rw [directiveLocation, directiveLocation, h.attached_eq]

/-- Labels are looked up in one and the same list of cursors. -/
theorem InStep.cursor?_eq (h : InStep ahead s s' c c') (label : String) :
    s'.cursor? label = s.cursor? label := by
  rw [cursor?, cursor?, h.cursors]

/-- `share` treats the cursors of both sessions alike. -/
theorem InStep.share_cursors (h : InStep ahead s s' c c') (st : Step) :
    (s'.share c' st).cursors = (s.share c st).cursors := by
  cases st with
  | intern text label => cases label <;> exact h.cursors
  | newCursor label loc => exact congrArg (· ++ [⟨label, loc⟩]) h.cursors
  | move m =>
    rw [share, share, h.inStep.cursor]
    cases c.cursor with
    | none => exact h.cursors
    | some n => exact congrArg (List.modify · n _) h.cursors
  | _ => exact h.cursors

/-- `adjust` is by the options, the cursor, the sink and the count, and so keeps checkers in step.
-/
theorem InStep.adjust (h : InStep ahead s s' c c') {e e' : Checker} (he : e.InStep ahead e')
    (st : Step) : (s.adjust e st).InStep ahead (s'.adjust e' st) := by
  cases st with
  | addError => exact ⟨he.options, he.cursor, he.sink, congrArg (· + 1) he.errors⟩
  | edit x => exact ⟨congrArg (x.apply ·) he.options, he.cursor, he.sink, he.errors⟩
  | attach label =>
    cases label with
    | none => exact ⟨he.options, rfl, he.sink, he.errors⟩
    | some label =>
      simp only [Session.adjust, h.cursor?_eq]
      cases s.cursor? label with
      | none => exact he
      | some n => exact ⟨he.options, rfl, he.sink, he.errors⟩
  | clearSink => exact ⟨he.options, he.cursor, congrArg Sink.clear he.sink, he.errors⟩
  | _ => exact he

/-! ## References -/

/-- The registries of sessions in step are `Alike`. -/
theorem InStep.alike (h : InStep ahead s s' c c') : c.registry.Alike c'.registry := by
  obtain ⟨d, hd, hd'⟩ := h.described
  exact hd.alike hd'

/-- The second session has no more names than the first. -/
theorem InStep.size_le (h : InStep ahead s s' c c') (hsize : c.registry.size ≤ 2 ^ 32) :
    c'.registry.size ≤ 2 ^ 32 :=
  Nat.le_trans (h.alike.sound'.size_le_of_subset h.names) hsize

/-- A named reference is resolved in both sessions or in neither, and then to identities that one
and the same text is found under. -/
theorem InStep.resolve_rel (h : InStep ahead s s' c c') {ref : ExtensionRef} (href : ref.IsNamed) :
    Option.Rel (fun id id' => ∃ text,
        c.registry.find? text = some id ∧ c'.registry.find? text = some id')
      (s.resolve ref) (s'.resolve ref) := by
  obtain ⟨d, hd, hd'⟩ := h.described
  rw [hd.resolve_eq href, hd'.resolve_eq href]
  cases htext : d.nameOf? ref with
  | none => exact Option.Rel.none
  | some text => exact Option.Rel.some ⟨text, hd.find?_idOf href htext, hd'.find?_idOf href htext⟩

/-- Both registries hold the same for the names that named references stand for. -/
theorem InStep.sameAt (h : InStep ahead s s' c c') (hsize : c.registry.size ≤ 2 ^ 32)
    {d : Declarations} (hd : d.Describes c.registry s.saved)
    (hd' : d.Describes c'.registry s'.saved) {ref : ExtensionRef} (href : ref.IsNamed)
    {text : String} (htext : d.nameOf? ref = some text) :
    c.registry.SameAt c'.registry (c.registry.idOf text) (c'.registry.idOf text) :=
  h.alike.sameAt hsize (h.size_le hsize) (hd.find?_idOf href htext) (hd'.find?_idOf href htext)

/-- A `Check` with named references is resolved in both sessions or in neither, and then `Check.run`
is the same. -/
theorem InStep.check_rel (h : InStep ahead s s' c c') (hsize : c.registry.size ≤ 2 ^ 32)
    {k : Check ExtensionRef} (hk : ∀ ref ∈ k.ids, ref.IsNamed) :
    Option.Rel (fun k k' => ∀ loc feature,
        Check.run c'.options c'.registry loc feature k' =
          Check.run c.options c.registry loc feature k)
      (k.resolve s.resolve) (k.resolve s'.resolve) := by
  obtain ⟨d, hd, hd'⟩ := h.described
  rw [hd.resolve_check hk, hd'.resolve_check hk, h.inStep.options]
  cases hnamed : k.resolve d.nameOf? with
  | none => exact Option.Rel.none
  | some named =>
    refine Option.Rel.some fun loc feature => ?_
    have hcatalog (e : Extension) : c.registry.SameAt c'.registry e.id e.id :=
      h.alike.sameAt hsize (h.size_le hsize)
        (h.alike.sound.find?_name e) (h.alike.sound'.find?_name e)
    refine Check.run_congr (Options.SameRules.refl _) hcatalog (fun text htext => ?_) loc feature
    obtain ⟨ref, href, hname⟩ := Check.exists_of_mem_ids hnamed htext
    exact h.sameAt hsize hd hd' (hk ref href) hname

/-- A `Query` with named references is resolved in both sessions or in neither, and then
`Query.answer` is the same. -/
theorem InStep.query_rel (h : InStep ahead s s' c c') (hsize : c.registry.size ≤ 2 ^ 32)
    {q : Query ExtensionRef} (hq : ∀ ref ∈ q.ids, ref.IsNamed) :
    Option.Rel (fun q q' => Query.answer c'.registry q' = Query.answer c.registry q)
      (q.resolve s.resolve) (q.resolve s'.resolve) := by
  obtain ⟨d, hd, hd'⟩ := h.described
  rw [hd.resolve_query hq, hd'.resolve_query hq]
  cases hnamed : q.resolve d.nameOf? with
  | none => exact Option.Rel.none
  | some named =>
    refine Option.Rel.some (Query.answer_congr (fun text => ?_) fun text htext => ?_)
    · exact h.alike.behaviorOf_eq hsize (h.size_le hsize) text
    · obtain ⟨ref, href, hname⟩ := Query.exists_of_mem_ids hnamed htext
      exact h.sameAt hsize hd hd' (hq ref href) hname

/-! ## What a step does -/

/-- The names after a step are those before it, and the one of `Step.taken?`. -/
theorem names_effect (s : Session) (c : Checker) (st : Step) :
    (s.effect c st).registry.names =
      st.taken?.elim c.registry.names fun text => (c.registry.intern text).1.names := by
  cases st with
  | check place feature k =>
    exact congrArg Registry.names (s.registry_effect_check c place feature k)
  | report severity channel place reason token extra =>
    exact congrArg Registry.names
      (s.registry_effect_report c severity channel place reason token extra)
  | directive line text keyword =>
    simp only [effect, Step.taken?]
    cases hkeyword : Behavior.ofKeyword? keyword with
    | none =>
      rw [Directive.apply, hkeyword]
      rfl
    | some b =>
      by_cases htext : text = Directive.everyExtension
      · rw [if_neg (fun hand => hand.2 htext), Directive.apply, hkeyword]
        show (if text = Directive.everyExtension then _ else _ : Update).registry.names = _
        rw [if_pos htext]
        cases b.isTurnedOn <;> rfl
      · rw [Registry.registry_directive_of_ne hkeyword htext, Registry.names_declare,
          if_pos ⟨rfl, htext⟩]
        rfl
  | declare place ref b =>
    simp only [effect]
    cases s.locate c place with
    | error e => rfl
    | ok loc =>
      cases s.resolve ref with
      | none => rfl
      | some id => exact c.registry.names_declare loc id b
  | _ => rfl

/-- A name is listed after a step if it was before, or if it is the one of `Step.taken?`. -/
theorem mem_names_effect {s : Session} {c : Checker} {st : Step} {x : String} :
    x ∈ (s.effect c st).registry.names ↔ x ∈ c.registry.names ∨ st.taken? = some x := by
  rw [names_effect]
  cases st.taken? with
  | none => exact ⟨Or.inl, fun h => h.resolve_right (Option.some_ne_none _).symm⟩
  | some text => rw [Option.elim_some, Registry.mem_names_intern, Option.some.injEq]

/-- The second session still lists no name that the first does not. -/
theorem InStep.names_effect (h : InStep ahead s s' c c') (st : Step) :
    (s'.effect c' st).registry.names ⊆ (s.effect c st).registry.names := fun x hx => by
  rw [mem_names_effect] at hx ⊢
  exact hx.imp_left fun hold => h.names hold

/-- A step gives off the same signals in both sessions, but for the log entry of a name it takes in.
-/
theorem InStep.signals_effect (h : InStep ahead s s' c c') {st : Step} (hst : st.IsNamed)
    (hsize : (s.effect c st).registry.size ≤ 2 ^ 32)
    (hsize' : (s'.effect c' st).registry.size ≤ 2 ^ 32) :
    remarked (s'.effect c' st).signals = remarked (s.effect c st).signals := by
  have hbefore : c.registry.size ≤ 2 ^ 32 := Nat.le_trans (s.evolves_effect c st).size_le hsize
  cases st with
  | check place feature k =>
    have hrel := h.check_rel hbefore hst
    simp only [effect, h.locate_eq]
    cases s.locate c place with
    | error e => rfl
    | ok loc =>
      generalize k.resolve s.resolve = k? at hrel ⊢
      generalize k.resolve s'.resolve = k?' at hrel ⊢
      cases hrel with
      | none => rfl
      | some hrun => exact congrArg (fun x : Outcome Unit => remarked x.signals) (hrun loc feature)
  | report severity channel place reason token extra =>
    simp only [effect, h.locate_eq]
    cases s.locate c place <;> rfl
  | directive line text keyword =>
    simp only [effect, h.directiveLocation_eq] at hsize hsize' ⊢
    exact Directive.signals_apply_eq _ h.alike hsize hsize'
  | declare place ref b =>
    have hrel := h.resolve_rel hst
    simp only [effect, h.locate_eq]
    cases s.locate c place with
    | error e => rfl
    | ok loc =>
      generalize s.resolve ref = id? at hrel ⊢
      generalize s'.resolve ref = id?' at hrel ⊢
      cases hrel with
      | none => rfl
      | some hfind =>
        obtain ⟨text, hid, hid'⟩ := hfind
        exact congrArg remarked
          (Directive.signals_declare_eq loc b h.alike hbefore (h.size_le hbefore) hid hid')
  | intern text label =>
    show remarked ((c'.registry.internEvents text).map .log) =
      remarked ((c.registry.internEvents text).map .log)
    rw [remarked_internEvents, remarked_internEvents]
  | _ => rfl

/-- Both registries are described by one `Declarations` after a step, the one that `describes_next`
gives. -/
theorem InStep.described_effect (h : InStep ahead s s' c c') {st : Step} (hst : st.IsNamed)
    (hsize : (s.effect c st).registry.size ≤ 2 ^ 32)
    (hsize' : (s'.effect c' st).registry.size ≤ 2 ^ 32) :
    ∃ d : Declarations, d.Describes (s.effect c st).registry (s.share c st).saved ∧
      d.Describes (s'.effect c' st).registry (s'.share c' st).saved := by
  obtain ⟨d, hd, hd'⟩ := h.described
  cases st with
  | declare place ref b =>
    have hlocate := h.locate_eq place
    cases hloc : s.locate c place with
    | error e =>
      rw [hloc] at hlocate
      simp only [effect, hlocate, hloc]
      exact ⟨d, hd, hd'⟩
    | ok loc =>
      rw [hloc] at hlocate
      -- the cursor stands where the declaration might as well have been placed
      have hplaced : s.effect c (.declare place ref b) = s.effect c (.declare (.at loc) ref b) := by
        simp only [effect, hloc]
        rfl
      have hplaced' :
          s'.effect c' (.declare place ref b) = s'.effect c' (.declare (.at loc) ref b) := by
        simp only [effect, hlocate]
        rfl
      rw [hplaced] at hsize ⊢
      rw [hplaced'] at hsize' ⊢
      have htold : (Step.declare (.at loc) ref b).IsTold := ⟨⟨loc, rfl⟩, hst⟩
      exact ⟨_, describes_next hd htold hsize, describes_next hd' htold hsize'⟩
  | _ => exact ⟨_, describes_next hd trivial hsize, describes_next hd' trivial hsize'⟩

/-! ## What a step is answered -/

/-- The answers of the two sessions to a step. An identity given out may have another place, unless
it is one of the catalog; the count of errors is behind by those of the first session's past. The
text of a checker tells the count as well, and nothing is said of it here. -/
def SameAnswer (ahead : Nat) : Step → Except StepError Answer → Except StepError Answer → Prop
  | .intern _ _, a, a' =>
    ∃ id id', a = .ok (.identity id) ∧ a' = .ok (.identity id') ∧ id'.known? = id.known?
  | .errorCount, a, a' => ∃ n, a = .ok (.count (ahead + n)) ∧ a' = .ok (.count n)
  | .configuration, a, a' =>
    ∃ c c', a = .ok (.configuration c) ∧ a' = .ok (.configuration c') ∧ c'.options = c.options
  | .text, _, _ => True
  | _, a, a' => a' = a

/-- The replies of the two sessions to a step: the reports are the same, and the log entries but for
those of names taken in. -/
structure SameReply (ahead : Nat) (st : Step) (reply reply' : Reply) : Prop where
  delivered : reply'.emission.delivered = reply.emission.delivered
  events : reply'.emission.events.filter (fun e => !e.isInterning) =
    reply.emission.events.filter fun e => !e.isInterning
  answer : SameAnswer ahead st reply.answer reply'.answer

/-- The answers to a step are as `SameAnswer` says, in each of its cases. -/
theorem InStep.answer (h : InStep ahead s s' c c') {st : Step} (hst : st.IsNamed)
    (hsize : (s.effect c st).registry.size ≤ 2 ^ 32)
    (hsize' : (s'.effect c' st).registry.size ≤ 2 ^ 32) :
    SameAnswer ahead st (s.stepWith 0 c st).2.answer (s'.stepWith 0 c' st).2.answer := by
  have hbefore : c.registry.size ≤ 2 ^ 32 := Nat.le_trans (s.evolves_effect c st).size_le hsize
  cases st with
  | check place feature k =>
    have hrel := h.check_rel hbefore hst
    simp only [stepWith, atPlace, h.locate_eq]
    cases s.locate c place with
    | error e => exact rfl
    | ok loc =>
      generalize k.resolve s.resolve = k? at hrel ⊢
      generalize k.resolve s'.resolve = k?' at hrel ⊢
      cases hrel with
      | none => exact rfl
      | some hrun => exact congrArg (fun x : Outcome Unit => ending x.result) (hrun loc feature)
  | report severity channel place reason token extra =>
    simp only [stepWith, atPlace, h.locate_eq]
    cases s.locate c place <;> exact rfl
  | directive line text keyword =>
    have hresult :=
      Directive.result_apply (s.directiveLocation c line) h.alike.sound text keyword
    have hresult' :=
      Directive.result_apply (s'.directiveLocation c' line) h.alike.sound' text keyword
    exact congrArg ending (hresult'.trans hresult.symm)
  | declare place ref b =>
    have hrel := h.resolve_rel hst
    simp only [stepWith, atPlace, h.locate_eq]
    cases s.locate c place with
    | error e => exact rfl
    | ok loc =>
      generalize s.resolve ref = id? at hrel ⊢
      generalize s'.resolve ref = id?' at hrel ⊢
      cases hrel with
      | none => exact rfl
      | some hfind =>
        obtain ⟨text, hid, hid'⟩ := hfind
        obtain ⟨hresult, -⟩ := h.alike.sound.declare_sets hbefore hid loc b
        obtain ⟨hresult', -⟩ := h.alike.sound'.declare_sets (h.size_le hbefore) hid' loc b
        exact congrArg ending (hresult'.trans hresult.symm)
  | intern text label =>
    have hinterned := h.alike.intern text
    have hknown := hinterned.sound.known?_of_find? hsize (h.alike.sound.find?_intern text)
    have hknown' := hinterned.sound'.known?_of_find? hsize' (h.alike.sound'.find?_intern text)
    exact ⟨_, _, rfl, rfl, hknown'.trans hknown.symm⟩
  | ask q =>
    have hrel := h.query_rel hbefore hst
    simp only [stepWith]
    generalize q.resolve s.resolve = q? at hrel ⊢
    generalize q.resolve s'.resolve = q?' at hrel ⊢
    cases hrel with
    | none => exact rfl
    | some hanswer =>
      exact congrArg (fun x => (x.map Answer.found).mapError StepError.refused) hanswer
  | configuration => exact ⟨_, _, rfl, rfl, h.inStep.options⟩
  | errorCount => exact ⟨_, congrArg (Except.ok ∘ Answer.count) h.inStep.errors, rfl⟩
  | text => exact trivial
  | preamble =>
    exact congrArg (fun o => Except.ok (Answer.text (ShaderCompat.preamble o))) h.inStep.options
  | attach label =>
    cases label with
    | none =>
      exact congrArg (fun a => Except.ok (Answer.label (Option.map Cursor.label a))) h.attached_eq
    | some label =>
      simp only [stepWith, h.cursor?_eq, h.attached_eq]
      cases s.cursor? label <;> exact rfl
  | cursor =>
    exact congrArg (fun a => Except.ok (Answer.label (Option.map Cursor.label a))) h.attached_eq
  | location =>
    simp only [stepWith, currentLocation, h.attached_eq]
    exact rfl
  | move m =>
    simp only [stepWith, h.inStep.cursor]
    cases c.cursor <;> exact rfl
  | sink => exact congrArg (fun k : Sink => Except.ok (Answer.kept k.kept?)) h.inStep.sink
  | _ => exact rfl

/-! ## Runs -/

/-- One step: the sessions stay in step, and the replies are as `SameReply` says. -/
theorem InStep.step (h : InStep ahead s s' c c') {st : Step} (hst : st.IsNamed)
    (hsize : (s.effect c st).registry.size ≤ 2 ^ 32) :
    InStep ahead (s.step 0 st).1 (s'.step 0 st).1 (s.next c st) (s'.next c' st) ∧
      SameReply ahead st (s.step 0 st).2 (s'.step 0 st).2 := by
  have hhead : s.checkers[0]? = some c := by rw [h.checkers]; rfl
  have hhead' : s'.checkers[0]? = some c' := by rw [h.checkers']; rfl
  have hsize' : (s'.effect c' st).registry.size ≤ 2 ^ 32 := by
    have hsound := (s'.evolves_effect c' st).sound h.alike.sound'
    exact Nat.le_trans (hsound.size_le_of_subset (h.names_effect st)) hsize
  obtain ⟨hchecker, hdelivered, hevents⟩ := h.inStep.absorb (h.signals_effect hst hsize hsize')
  have hcursors : (s'.step 0 st).1.cursors = (s.step 0 st).1.cursors := by
    rw [step_eq_stepWith hhead, step_eq_stepWith hhead', (stepWith_eq hhead st).1,
      (stepWith_eq hhead' st).1]
    exact h.share_cursors st
  refine ⟨⟨(step_solo h.checkers st).1, (step_solo h.checkers' st).1, hcursors,
    h.adjust hchecker st, ?_, ?_⟩, ⟨?_, ?_, ?_⟩⟩
  · rw [next_registry, next_registry]
    exact h.names_effect st
  · rw [next_registry, next_registry, (step_solo h.checkers st).2, (step_solo h.checkers' st).2]
    exact h.described_effect hst hsize hsize'
  · rw [step_emission hhead, step_emission hhead', hdelivered]
  · rw [step_emission hhead, step_emission hhead', hevents]
  · rw [step_eq_stepWith hhead, step_eq_stepWith hhead']
    exact h.answer hst hsize hsize'

/-- A whole run: sessions in step stay so, and reply the same all along. The bound on the names need
only hold of the registry the run ends with. -/
theorem InStep.run (h : InStep ahead s s' c c') {steps : List Step}
    (hsteps : ∀ st ∈ steps, st.IsNamed) {last : Checker}
    (hlast : (s.run (steps.map (0, ·))).1.checkers = [last]) (hsize : last.registry.size ≤ 2 ^ 32) :
    ∃ last', InStep ahead (s.run (steps.map (0, ·))).1 (s'.run (steps.map (0, ·))).1 last last' ∧
      List.Forall₂ (fun st replies => SameReply ahead st replies.1 replies.2) steps
        ((s.run (steps.map (0, ·))).2.zip (s'.run (steps.map (0, ·))).2) := by
  induction steps generalizing s s' c c' with
  | nil =>
    obtain rfl : c = last := List.singleton_inj.mp (h.checkers.symm.trans hlast)
    exact ⟨c', h, List.Forall₂.nil⟩
  | cons st rest ih =>
    obtain ⟨hst, hrest⟩ := List.forall_mem_cons.mp hsteps
    -- names are never dropped, so they were few enough at every step
    obtain ⟨final, hfinal, hevolves⟩ := run_solo (step_solo h.checkers st).1 rest
    obtain rfl : final = last := List.singleton_inj.mp (hfinal.symm.trans hlast)
    rw [next_registry] at hevolves
    obtain ⟨hnext, hreply⟩ := h.step hst (Nat.le_trans hevolves.size_le hsize)
    obtain ⟨last', hend, hreplies⟩ := ih hnext hrest hlast
    exact ⟨last', hend, List.Forall₂.cons hreply hreplies⟩

end Session

end ShaderCompat
