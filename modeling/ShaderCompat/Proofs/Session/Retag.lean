import ShaderCompat.Proofs.Retag
import ShaderCompat.Proofs.Session.Effect

/-!
# Sessions under other owner tags

What tag a checker's registry was given shows nowhere in a run but in the identities that are given
out. If the tags are renamed in a session, in its saved identities and in the identities that steps
are written with, each step does what it did (`step_retag`) and is answered as it was
(`answer_retag`), and so is a whole run (`run_retag`, `answers_retag`). Two sessions that were set
up alike, with different tags, are thus as good as one.
-/

namespace ShaderCompat

variable (ρ : Retagging)

/-- The reference with its owner renamed by `ρ`. -/
def ExtensionRef.retag : ExtensionRef → ExtensionRef
  | .known e => .known e
  | .saved label => .saved label
  | .exact id => .exact (id.retag ρ)

/-- The step with the owners of its identities renamed by `ρ`. -/
def Step.retag : Step → Step
  | .check place feature k => .check place feature (k.map (ExtensionRef.retag ρ))
  | .declare place ref b => .declare place (ref.retag ρ) b
  | .ask (.behavior ref) => .ask (.behavior (ref.retag ρ))
  | .ask (.nameOf ref) => .ask (.nameOf (ref.retag ρ))
  | .ask (.turnedOn ref) => .ask (.turnedOn (ref.retag ρ))
  | .ask (.anyTurnedOn refs) => .ask (.anyTurnedOn (refs.map (ExtensionRef.retag ρ)))
  | .ask (.anyDeclared refs) => .ask (.anyDeclared (refs.map (ExtensionRef.retag ρ)))
  | st => st

/-- The checker with the tag of its registry renamed by `ρ`. -/
def Checker.retag (c : Checker) : Checker := { c with registry := c.registry.retag ρ }

/-- The answer with the owner of an `identity` in it renamed. -/
def Answer.retag : Answer → Answer
  | .identity id => .identity (id.retag ρ)
  | .configuration c => .configuration (c.retag ρ)
  | a => a

/-- The reply with the owner of an identity in its answer renamed. -/
def Reply.retag (reply : Reply) : Reply :=
  { reply with answer := reply.answer.map (Answer.retag ρ) }

/-- The session with all its tags renamed, those in `saved` included. -/
def Session.retag (s : Session) : Session where
  checkers := s.checkers.map (Checker.retag ρ)
  cursors := s.cursors
  saved := s.saved.map fun p => (p.1, p.2.retag ρ)

namespace Session

/-- A renamed reference is resolved to the renamed identity. -/
theorem resolve_retag (s : Session) (ref : ExtensionRef) :
    (s.retag ρ).resolve (ref.retag ρ) = (s.resolve ref).map (ExtensionId.retag ρ) := by
  cases ref with
  | known e => exact congrArg some (ExtensionId.retag_id ρ e).symm
  | exact id => rfl
  | saved label =>
    show (s.saved.map fun p => (p.1, p.2.retag ρ)).lookup label =
      (s.saved.lookup label).map (ExtensionId.retag ρ)
    -- the labels are not renamed, so the same entry is found
    induction s.saved with
    | nil => rfl
    | cons p rest ih =>
      obtain ⟨l, id⟩ := p
      rw [List.map_cons, List.lookup_cons, List.lookup_cons]
      cases label == l with
      | true => rfl
      | false => exact ih

/-- Locations have no tags. -/
theorem locate_retag (s : Session) (c : Checker) (place : Place) :
    (s.retag ρ).locate (c.retag ρ) place = s.locate c place := by
  cases place <;> rfl

/-- The `effect` of a step in a renamed session is the renamed `effect`. -/
theorem effect_retag (s : Session) (c : Checker) (st : Step) :
    (s.retag ρ).effect (c.retag ρ) (st.retag ρ) = (s.effect c st).retag ρ := by
  cases st with
  | check place feature k =>
    simp only [Step.retag, effect, locate_retag,
      Check.resolve_map fun ref _ => s.resolve_retag ρ ref]
    cases s.locate c place with
    | error e => rfl
    | ok loc =>
      cases k.resolve s.resolve with
      | none => rfl
      | some k =>
        exact congrArg (fun x : Outcome Unit => Update.mk (c.registry.retag ρ) x.signals x.result)
          (Check.run_retag ρ c.options c.registry loc feature k)
  | report severity channel place reason token extra =>
    simp only [Step.retag, effect, locate_retag]
    cases s.locate c place <;> rfl
  | directive line text keyword => exact Directive.apply_retag ρ _ text keyword c.registry
  | declare place ref b =>
    simp only [Step.retag, effect, locate_retag, resolve_retag]
    cases s.locate c place with
    | error e => rfl
    | ok loc =>
      cases s.resolve ref with
      | none => rfl
      | some id => exact Directive.declare_retag ρ loc id b c.registry
  | intern text label =>
    show Update.mk ((c.registry.retag ρ).intern text).1 _ _ = _
    rw [Registry.intern_retag]
    show Update.mk _ (((c.registry.retag ρ).internEvents text).map .log) _ = _
    rw [Registry.internEvents_retag]
    rfl
  | ask q => cases q <;> rfl
  | _ => rfl

/-- So is the checker after it (`next`). -/
theorem next_retag (s : Session) (c : Checker) (st : Step) :
    (s.retag ρ).next (c.retag ρ) (st.retag ρ) = (s.next c st).retag ρ := by
  have habsorb : ((c.retag ρ).absorb ((s.effect c st).retag ρ)).1 =
      (c.absorb (s.effect c st)).1.retag ρ := by
    rw [Checker.absorb, Checker.absorb, Checker.receiveAll_checker, Checker.receiveAll_checker]
    rfl
  rw [next, effect_retag, habsorb, next]
  cases st with
  | ask q => cases q <;> rfl
  | attach label =>
    show (s.retag ρ).adjust _ (.attach label) = _
    rw [adjust_attach, adjust_attach]
    cases label <;> rfl
  | _ => rfl

/-- So is what the step changes in the session (`share`). -/
theorem share_retag (s : Session) (c : Checker) (st : Step) :
    (s.retag ρ).share (c.retag ρ) (st.retag ρ) = (s.share c st).retag ρ := by
  cases st with
  | ask q => cases q <;> rfl
  | intern text label =>
    cases label with
    | none => rfl
    | some label =>
      show Session.mk _ _ ((label, ((c.registry.retag ρ).intern text).2) :: _) = _
      rw [Registry.intern_retag]
      rfl
  | move m =>
    simp only [Step.retag, share]
    rw [show (c.retag ρ).cursor = c.cursor from rfl]
    cases c.cursor <;> rfl
  | _ => rfl

/-- The checkers of a renamed session are the renamed ones, in the same places. -/
theorem getElem?_checkers_retag (s : Session) (i : Nat) :
    (s.retag ρ).checkers[i]? = (s.checkers[i]?).map (Checker.retag ρ) := List.getElem?_map

/-- One step does the same under the new names, also where there is no checker at `i`. -/
theorem step_retag (s : Session) (i : Nat) (st : Step) :
    ((s.retag ρ).step i (st.retag ρ)).1 = (s.step i st).1.retag ρ := by
  have hchecker := s.getElem?_checkers_retag ρ i
  cases h : s.checkers[i]? with
  | none =>
    rw [h] at hchecker
    rw [step, step, h, hchecker]
    rfl
  | some c =>
    rw [h] at hchecker
    rw [step_eq_stepWith h, step_eq_stepWith hchecker, (stepWith_eq h st).1,
      (stepWith_eq hchecker _).1, share_retag, next_retag]
    have hset : ((s.share c st).checkers.map (Checker.retag ρ)).set i ((s.next c st).retag ρ) =
        ((s.share c st).checkers.set i (s.next c st)).map (Checker.retag ρ) := List.map_set.symm
    exact congrArg (fun cs => { (s.share c st).retag ρ with checkers := cs }) hset

/-- The text of a checker has only the number of its `tracked` extensions. -/
theorem text_retag (c : Checker) : (c.retag ρ).text = c.text := by
  have hcount : (c.registry.retag ρ).tracked.length = c.registry.tracked.length := by
    rw [Registry.tracked_retag, List.length_map]
  unfold Checker.text
  rw [show (c.retag ρ).registry = c.registry.retag ρ from rfl, hcount]
  rfl

/-- How a step ended holds no identity. -/
theorem retag_ending (x : Except Refusal Unit) :
    (ending x).map (Answer.retag ρ) = ending x := by
  cases x <;> rfl

/-- With a checker at hand, a step is answered as it was, up to the owner of an identity in the
answer. -/
theorem stepWith_answer_retag (s : Session) (i : Nat) (c : Checker) (st : Step) :
    ((s.retag ρ).stepWith i (c.retag ρ) (st.retag ρ)).2.answer =
      (s.stepWith i c st).2.answer.map (Answer.retag ρ) := by
  cases st with
  | check place feature k =>
    simp only [Step.retag, stepWith, atPlace, locate_retag,
      Check.resolve_map fun ref _ => s.resolve_retag ρ ref]
    cases s.locate c place with
    | error e => rfl
    | ok loc =>
      cases k.resolve s.resolve with
      | none => rfl
      | some k =>
        have hrun := Check.run_retag ρ c.options c.registry loc feature k
        exact (congrArg (fun x => ending x.result) hrun).trans (retag_ending ρ _).symm
  | report severity channel place reason token extra =>
    simp only [Step.retag, stepWith, atPlace, locate_retag]
    cases s.locate c place <;> rfl
  | directive line text keyword =>
    have happly := Directive.apply_retag ρ (s.directiveLocation c line) text keyword c.registry
    exact (congrArg (fun u => ending u.result) happly).trans (retag_ending ρ _).symm
  | declare place ref b =>
    simp only [Step.retag, stepWith, atPlace, locate_retag, resolve_retag]
    cases s.locate c place with
    | error e => rfl
    | ok loc =>
      cases s.resolve ref with
      | none => rfl
      | some id =>
        have hdeclare := Directive.declare_retag ρ loc id b c.registry
        exact (congrArg (fun u => ending u.result) hdeclare).trans (retag_ending ρ _).symm
  | intern text label =>
    exact congrArg (fun x : Registry × ExtensionId => Except.ok (Answer.identity x.2))
      (c.registry.intern_retag ρ text)
  | ask q =>
    have hstep : (Step.ask q).retag ρ = .ask (q.map (ExtensionRef.retag ρ)) := by cases q <;> rfl
    simp only [hstep, stepWith, Query.resolve_map fun ref _ => s.resolve_retag ρ ref]
    cases q.resolve s.resolve with
    | none => rfl
    | some q =>
      show (((q.map _).answer (c.registry.retag ρ)).map Answer.found).mapError _ =
        (((q.answer c.registry).map Answer.found).mapError _).map (Answer.retag ρ)
      rw [Query.answer_retag]
      cases q.answer c.registry <;> rfl
  | attach label =>
    cases label with
    | none => rfl
    | some label =>
      simp only [Step.retag, stepWith]
      rw [show (s.retag ρ).cursor? label = s.cursor? label from rfl]
      cases s.cursor? label <;> rfl
  | location =>
    simp only [Step.retag, stepWith]
    rw [show (s.retag ρ).currentLocation (c.retag ρ) = s.currentLocation c from rfl]
    cases s.currentLocation c <;> rfl
  | move m =>
    simp only [Step.retag, stepWith]
    rw [show (c.retag ρ).cursor = c.cursor from rfl]
    cases c.cursor <;> rfl
  | text =>
    show Except.ok (Answer.text (c.retag ρ).text) = .ok (.text c.text)
    rw [text_retag]
  | _ => rfl

/-- One step is answered as it was, under the new names. -/
theorem answer_retag (s : Session) (i : Nat) (st : Step) :
    ((s.retag ρ).step i (st.retag ρ)).2.answer =
      (s.step i st).2.answer.map (Answer.retag ρ) := by
  have hchecker := s.getElem?_checkers_retag ρ i
  cases h : s.checkers[i]? with
  | none =>
    rw [h] at hchecker
    rw [step, step, h, hchecker]
    rfl
  | some c =>
    rw [h] at hchecker
    rw [step_eq_stepWith h, step_eq_stepWith hchecker]
    exact s.stepWith_answer_retag ρ i c st

/-- A whole run does the same under the new names. -/
theorem run_retag (s : Session) (steps : List (Nat × Step)) :
    ((s.retag ρ).run (steps.map fun p => (p.1, p.2.retag ρ))).1 = (s.run steps).1.retag ρ := by
  induction steps generalizing s with
  | nil => rfl
  | cons p rest ih =>
    obtain ⟨i, st⟩ := p
    rw [List.map_cons, run_cons, run_cons, step_retag, ih]

/-- What `absorb` lets out holds no identity. -/
theorem absorb_emission_retag (c : Checker) (u : Update) :
    ((c.retag ρ).absorb (u.retag ρ)).2 = (c.absorb u).2 := by
  refine Checker.receiveAll_emission_congr ?_ ?_ u.signals
  · rfl
  · rfl

/-- One step has the reply that it had, under the new names. -/
theorem reply_retag (s : Session) (i : Nat) (st : Step) :
    ((s.retag ρ).step i (st.retag ρ)).2 = (s.step i st).2.retag ρ := by
  have hemission : ((s.retag ρ).step i (st.retag ρ)).2.emission = (s.step i st).2.emission := by
    have hchecker := s.getElem?_checkers_retag ρ i
    cases h : s.checkers[i]? with
    | none =>
      rw [h] at hchecker
      rw [step, step, h, hchecker]
      rfl
    | some c =>
      rw [h] at hchecker
      rw [step_emission h, step_emission hchecker, effect_retag, absorb_emission_retag]
  exact congrArg₂ Reply.mk hemission (s.answer_retag ρ i st)

/-- A whole run has the replies that it had, under the new names. -/
theorem replies_retag (s : Session) (steps : List (Nat × Step)) :
    ((s.retag ρ).run (steps.map fun p => (p.1, p.2.retag ρ))).2 =
      (s.run steps).2.map (Reply.retag ρ) := by
  induction steps generalizing s with
  | nil => rfl
  | cons p rest ih =>
    obtain ⟨i, st⟩ := p
    rw [List.map_cons, run_cons, run_cons, List.map_cons, reply_retag, step_retag, ih]

/-- Two checkers in `Lockstep`, the second of which is driven under new names: its run is the one
that `Lockstep.run` gives, renamed. -/
theorem Lockstep.run_retag {ok : Step → Prop} {P : Checker → Checker → Prop}
    {R : Step → Reply → Reply → Prop} (hP : Lockstep ok P R) {s : Session} {c c' : Checker}
    (hs : s.checkers = [c]) (h : P c c') {steps : List Step} (hsteps : ∀ st ∈ steps, ok st) :
    ∃ d d' replies', (s.run (steps.map (0, ·))).1.checkers = [d] ∧
      ((s.withChecker 0 c').run (steps.map (0, ·))).1.checkers = [d'] ∧
      ((s.withChecker 0 c').run (steps.map (0, ·))).2 = replies' ∧
      (((s.withChecker 0 c').retag ρ).run
        (steps.map fun st => (0, st.retag ρ))).1.checkers = [d'.retag ρ] ∧
      (((s.withChecker 0 c').retag ρ).run
        (steps.map fun st => (0, st.retag ρ))).2 = replies'.map (Reply.retag ρ) ∧ P d d' ∧
      List.Forall₂ (fun x reply' => R x.1 x.2 reply')
        (steps.zip (s.run (steps.map (0, ·))).2) replies' := by
  obtain ⟨d, d', hd, hrun, hend, hreplies⟩ := hP.run hs h hsteps
  have hd' : ((s.withChecker 0 c').run (steps.map (0, ·))).1.checkers = [d'] := by
    rw [hrun, withChecker, hd]
    rfl
  have hsteps' : (steps.map fun st => (0, st.retag ρ)) =
      (steps.map fun st => (0, st)).map fun p : Nat × Step => (p.1, p.2.retag ρ) := by
    rw [List.map_map]
    rfl
  refine ⟨d, d', _, hd, hd', rfl, ?_, ?_, hend, hreplies⟩
  · rw [hsteps', Session.run_retag]
    exact congrArg (List.map (Checker.retag ρ)) hd'
  · rw [hsteps', replies_retag]

/-! ## Sessions set up alike -/

end Session

end ShaderCompat
