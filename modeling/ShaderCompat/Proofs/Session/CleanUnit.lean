import ShaderCompat.Proofs.Session.Directive
import ShaderCompat.Proofs.Session.InStep

/-!
# A unit begins clean

A checker that begins a unit keeps the names it has listed, and with them the identities it has
given out. A new checker lists the catalog alone, so the two give different identities to the names
that they read from then on. Nothing else tells them apart: what was declared and reported before
the unit began shows nowhere (`Session.clean_unit`).
-/

namespace ShaderCompat

/-- The checker at the beginning of the next unit, with its sink cleared. -/
def Checker.nextUnit (c : Checker) : Checker := { c.beginUnit with sink := c.sink.clear }

/-- A new checker with the configuration, the cursor and the kind of sink of this one. -/
def Checker.renewed (c : Checker) (tag : UInt32) : Checker :=
  { Checker.start c.options tag c.sink.clear with cursor := c.cursor }

namespace Session

/-- At the beginning of a unit a checker is in step with a new one. -/
theorem inStep_nextUnit {c : Checker} (hc : c.Reachable) (tag : UInt32) (cursors : List Cursor) :
    InStep c.errors { checkers := [c.nextUnit], cursors } { checkers := [c.renewed tag], cursors }
      c.nextUnit (c.renewed tag) where
  checkers := rfl
  checkers' := rfl
  cursors := rfl
  inStep := ⟨rfl, rfl, rfl, rfl⟩
  names := hc.sound.catalog.subset
  described := by
    have hreset : c.registry.reset.Sound :=
      (Registry.Change.reset c.registry).evolves.sound hc.sound
    exact ⟨{}, ⟨hreset, Registry.recorded_reset hc.sound.nodup, List.Forall₂.nil⟩,
      ⟨Registry.sound_fresh tag, Registry.recorded_fresh tag, List.Forall₂.nil⟩⟩

/-- Some steps were taken with two checkers, of which the one counts `ahead` errors from before.
Nothing else but the places of names tells their replies apart, nor the checkers in the end. -/
structure SameUnit (ahead : Nat) (steps : List Step) (replies replies' : List Reply)
    (used new : Checker) : Prop where
  /-- The replies agree step by step. -/
  replies : List.Forall₂ (fun st rs => SameReply ahead st rs.1 rs.2) steps (replies.zip replies')
  /-- The steps have raised both counters by the same amount. -/
  errors : used.errors = ahead + new.errors
  sink : new.sink = used.sink
  options : new.options = used.options
  /-- The same extensions are listed as declared, with the same behaviors. -/
  listing : ∃ slots slots', used.registry.listing = .ok slots ∧ new.registry.listing = .ok slots' ∧
    (slots.map Prod.snd).Perm (slots'.map Prod.snd)
  /-- Every name has the same behavior. -/
  behavior : ∀ text, new.registry.behaviorOf text = used.registry.behaviorOf text

/-- A checker that a session has come to begins a unit and has its sink cleared; another is made
anew with its configuration and its cursor. Both are driven by the same steps, whose references are
by the catalog or by labels that are given on the way. As long as the names fit the width of an
identity, every step lets out the same reports, has the same answer and leaves the same in the log,
but that a name which is taken in may have another place, and that the first checker still counts
its errors of the past. In the end the same extensions are declared, with the same behaviors. -/
theorem clean_unit {c : Checker} (hc : c.Reachable) (tag : UInt32) (cursors : List Cursor)
    {steps : List Step} (hsteps : ∀ st ∈ steps, st.IsNamed) :
    ∃ used new,
      (run { checkers := [c.nextUnit], cursors } (steps.map (0, ·))).1.checkers = [used] ∧
      (run { checkers := [c.renewed tag], cursors } (steps.map (0, ·))).1.checkers = [new] ∧
      (used.registry.size ≤ 2 ^ 32 →
        SameUnit c.errors steps (run { checkers := [c.nextUnit], cursors } (steps.map (0, ·))).2
          (run { checkers := [c.renewed tag], cursors } (steps.map (0, ·))).2 used new) := by
  have hstart := inStep_nextUnit hc tag cursors
  obtain ⟨used, hused, -⟩ := run_solo hstart.checkers steps
  obtain ⟨new, hnew, -⟩ := run_solo hstart.checkers' steps
  refine ⟨used, new, hused, hnew, fun hsize => ?_⟩
  obtain ⟨last', hend, hreplies⟩ := hstart.run hsteps hused hsize
  obtain rfl : last' = new := List.singleton_inj.mp (hend.checkers'.symm.trans hnew)
  have hsize' : last'.registry.size ≤ 2 ^ 32 := hend.size_le hsize
  exact {
    replies := hreplies
    errors := hend.inStep.errors
    sink := hend.inStep.sink
    options := hend.inStep.options
    listing := ⟨_, _, Registry.listing_eq hsize, Registry.listing_eq hsize',
      hend.alike.declared_perm⟩
    behavior := hend.alike.behaviorOf_eq hsize hsize' }

/-- An extension that was partly supported in the unit before is remarked on again, and a name that
was required there is missing. -/
theorem clean_unit_partial :
    ∃ c used new : Checker, c.Reachable ∧ c.errors = 1 ∧
      (run { checkers := [c.nextUnit] }
        [(0, .directive 1 "GL_ARB_gpu_shader5" "enable"), (0, .intern "GL_VENDOR_y" (some "y")),
          (0, .declare (.at {}) (.saved "y") .enable)]).1.checkers = [used] ∧
      (run { checkers := [c.renewed 2] }
        [(0, .directive 1 "GL_ARB_gpu_shader5" "enable"), (0, .intern "GL_VENDOR_y" (some "y")),
          (0, .declare (.at {}) (.saved "y") .enable)]).1.checkers = [new] ∧
      used.errors = 1 + new.errors ∧ new.sink = used.sink ∧
      new.registry.behaviorOf "GL_VENDOR_x" = used.registry.behaviorOf "GL_VENDOR_x" := by
  have hrun : (((Session.start (.recording []) [{}]).run
      [(0, .directive 1 "GL_VENDOR_x" "require"),
        (0, .directive 2 "GL_ARB_gpu_shader5" "enable")]).1.checkers[0]?).any (fun c =>
          c.errors == 1 && (run { checkers := [c.nextUnit] }
            [(0, .directive 1 "GL_ARB_gpu_shader5" "enable"),
              (0, .intern "GL_VENDOR_y" (some "y")),
              (0, .declare (.at {}) (.saved "y") .enable)]).1.checkers.all
                fun used => used.registry.size ≤ 2 ^ 32) = true := by
    decide +kernel
  obtain ⟨c, hc, hprops⟩ := (Option.any_eq_true _ _).mp hrun
  obtain ⟨hone, hall⟩ := Bool.and_eq_true_iff.mp hprops
  have herrors : c.errors = 1 := eq_of_beq hone
  have hreach : c.Reachable := ⟨_, _, _, _, hc⟩
  have hsteps : ∀ st ∈ [Step.directive 1 "GL_ARB_gpu_shader5" "enable",
      .intern "GL_VENDOR_y" (some "y"), .declare (.at {}) (.saved "y") .enable], st.IsNamed := by
    simp [Step.IsNamed, ExtensionRef.IsNamed]
  obtain ⟨used, new, hused, hnew, hsame⟩ := clean_unit hreach 2 [] hsteps
  have hsize : used.registry.size ≤ 2 ^ 32 :=
    of_decide_eq_true (List.all_eq_true.mp hall used (hused ▸ List.mem_singleton_self used))
  have hunit := hsame hsize
  exact ⟨c, used, new, hreach, herrors, hused, hnew, herrors ▸ hunit.errors, hunit.sink,
    hunit.behavior "GL_VENDOR_x"⟩

/-- A checker that lists `2 ^ 32 + e.index` names is given a directive on one more, and answers from
then on that `e` has the behavior. -/
theorem answers_wrapped {s : Session} {c : Checker} (hc : s.checkers[0]? = some c)
    (hr : c.registry.Sound) {e : Extension} (hsize : c.registry.size = 2 ^ 32 + e.index)
    {text keyword : String} (hnew : text ∉ c.registry.names)
    (htext : text ≠ Directive.everyExtension) {b : Behavior}
    (hkeyword : Behavior.ofKeyword? keyword = some b) (line : Int32) :
    (s.run [(0, .directive line text keyword), (0, .ask (.behaviorOf e.name))]).2.map
      Reply.answer = [.ok .done, .ok (.found (.behavior b))] := by
  obtain ⟨events, hstep⟩ := step_directive hc hr line text keyword rfl rfl
  have hlast := step_checker hc (.directive line text keyword)
  have hbehavior :
      (s.next c (.directive line text keyword)).registry.behaviorOf e.name = .ok b :=
    behaviorOf_next_wrapped hr hsize hnew htext hkeyword line
  have hasked : ((s.step 0 (.directive line text keyword)).1.step 0
      (.ask (.behaviorOf e.name))).2.answer = .ok (.found (.behavior b)) := by
    rw [step_eq_stepWith hlast]
    show ((Except.map Finding.behavior _).map Answer.found).mapError _ = _
    rw [hbehavior]
    rfl
  rw [run_cons, run_cons, List.map_cons, List.map_cons, hasked, hstep]
  rfl

/-- A unit does not begin quite clean. The errors of the past are still counted, and a checker that
lists `2 ^ 32` names takes the first extension of the catalog for the next name that it reads, where
a new checker does not. -/
theorem unit_not_clean :
    (∃ c : Checker, c.Reachable ∧
      (run { checkers := [c.nextUnit] } [(0, .errorCount)]).2.map Reply.answer =
        [.ok (.count 1)] ∧
      (run { checkers := [c.renewed 2] } [(0, .errorCount)]).2.map Reply.answer =
        [.ok (.count 0)]) ∧
    ∃ c : Checker, c.Reachable ∧
      (run { checkers := [c.nextUnit] } [(0, .directive 1 "GL_VENDOR_x" "enable"),
          (0, .ask (.behaviorOf "GL_OES_texture_3D"))]).2.map Reply.answer =
        [.ok .done, .ok (.found (.behavior .enable))] ∧
      (run { checkers := [c.renewed 2] } [(0, .directive 1 "GL_VENDOR_x" "enable"),
          (0, .ask (.behaviorOf "GL_OES_texture_3D"))]).2.map Reply.answer =
        [.ok .done, .ok (.found (.behavior .missing))] := by
  constructor
  · refine ⟨_, ⟨.recording [], [{}], [(0, .addError)], 0, rfl⟩, rfl, rfl⟩
  · obtain ⟨texts, r, hr, hsound, -, hsize, hnew⟩ :=
      exists_interned (s := start (.recording []) [{}]) (c := .start {} 1 (.recording [])) (i := 0)
        rfl (Registry.sound_fresh 1) (n := 2 ^ 32 + Extension.oesTexture3D.index)
        (by decide +kernel) (show "GL_VENDOR_x" ∉ _ by decide +kernel)
    have hanew : ({ Checker.start {} 1 (.recording []) with registry := r } : Checker).renewed 2 =
        .start {} 2 (.recording []) := rfl
    refine ⟨_, ⟨.recording [], [{}], _, 0, hr⟩, ?_, by rw [hanew]; decide +kernel⟩
    -- the new unit forgets the behaviors, and the names stay
    have hreset : r.reset.Sound := (Registry.Change.reset r).evolves.sound hsound
    exact answers_wrapped (c := { Checker.start {} 1 (.recording []) with registry := r.reset })
      (e := .oesTexture3D) rfl hreset hsize hnew (by decide) (b := .enable) (by decide) 1

end Session

end ShaderCompat
