import Mathlib.Data.List.Forall2
import ShaderCompat.Proofs.Reporting
import ShaderCompat.Session

/-!
# What a step of a session can do

Whatever a step does to its checker it does in one of two ways. Its `effect` is an update: a
registry, and the signals that the checker takes in. Its `adjust` changes something beside the
registry and reports nothing. The cursors and the saved identities change as `share` says.
`stepWith_eq` puts the three together, so that a property of steps needs no second case analysis.
-/

namespace ShaderCompat

/-- The update that leaves a registry as it is. -/
def Update.idle (r : Registry) : Update := ⟨r, [], .ok ()⟩

/-- Carries out an update: the checker with the new registry takes the signals in, by `receiveAll`.
-/
def Checker.absorb (c : Checker) (u : Update) : Checker × Emission :=
  { c with registry := u.registry }.receiveAll u.signals

/-- What `absorb` lets out depends on the message switches and on the kind of the sink. -/
theorem Checker.absorb_emission_congr {c c' : Checker}
    (hmessages : c'.options.messages = c.options.messages)
    (hsink : c'.sink.clear = c.sink.clear) (u : Update) : (c'.absorb u).2 = (c.absorb u).2 := by
  refine receiveAll_emission_congr ?_ ?_ u.signals
  · exact hmessages
  · exact hsink

namespace Session

/-- What a step does to the registry of its checker, and the signals it gives off. Steps that touch
no registry are `Update.idle`. -/
def effect (s : Session) (c : Checker) : Step → Update
  | .check place feature k =>
    match s.locate c place, k.resolve s.resolve with
    | .ok loc, some k =>
      let outcome := k.run c.options c.registry loc feature
      ⟨c.registry, outcome.signals, outcome.result⟩
    | _, _ => .idle c.registry
  | .report severity channel place reason token extra =>
    match s.locate c place with
    | .ok loc => ⟨c.registry, [.report ⟨severity, channel, loc, reason, token, extra⟩], .ok ()⟩
    | .error _ => .idle c.registry
  | .beginUnit => .idle c.registry.reset
  | .directive line name keyword =>
    Directive.apply (s.directiveLocation c line) name keyword c.registry
  | .declare place ref b =>
    match s.locate c place, s.resolve ref with
    | .ok loc, some id => Directive.declare loc id b c.registry
    | _, _ => .idle c.registry
  | .intern name _ =>
    ⟨(c.registry.intern name).1, (c.registry.internEvents name).map .log, .ok ()⟩
  | _ => .idle c.registry

/-- What a step changes in its checker besides the registry, without a report. -/
def adjust (s : Session) (c : Checker) : Step → Checker
  | .addError => c.addError
  | .edit e => { c with options := e.apply c.options }
  | .attach none => { c with cursor := none }
  | .attach (some label) =>
    match s.cursor? label with
    | some n => { c with cursor := some n }
    | none => c
  | .clearSink => { c with sink := c.sink.clear }
  | _ => c

/-- The cursor of a checker after an `attach` of a label, or of none. A label that stands for no
cursor leaves the one it has. -/
def cursorAfter (s : Session) (c : Checker) : Option String → Option Nat
  | none => none
  | some label => (s.cursor? label).or c.cursor

/-- An `attach` sets the cursor to `cursorAfter`, and nothing else. -/
theorem adjust_attach (s : Session) (c : Checker) (label : Option String) :
    s.adjust c (.attach label) = { c with cursor := s.cursorAfter c label } := by
  cases label with
  | none => rfl
  | some label =>
    simp only [adjust, cursorAfter]
    cases s.cursor? label <;> rfl

/-- The checker after a step: `absorb` and then `adjust`. -/
def next (s : Session) (c : Checker) (st : Step) : Checker :=
  s.adjust (c.absorb (s.effect c st)).1 st

/-- What a step changes in `cursors` and `saved`. -/
def share (s : Session) (c : Checker) : Step → Session
  | .intern name (some label) => { s with saved := (label, (c.registry.intern name).2) :: s.saved }
  | .newCursor label loc => { s with cursors := s.cursors ++ [⟨label, loc⟩] }
  | .move m =>
    match c.cursor with
    | some n => s.moveCursor n m
    | none => s
  | _ => s

/-- The answer to a step that was carried out, by how it ended: `done`, or the refusal. -/
def ending (result : Except Refusal Unit) : Except StepError Answer :=
  (result.map fun _ => .done).mapError .refused

/-- A `check` leaves the registry alone, whether its place and its references are there or not. -/
theorem registry_effect_check (s : Session) (c : Checker) (place : Place) (feature : String)
    (k : Check ExtensionRef) :
    (s.effect c (.check place feature k)).registry = c.registry := by
  rw [effect]
  cases s.locate c place with
  | error e => rfl
  | ok loc => cases k.resolve s.resolve <;> rfl

/-- A `report` leaves the registry alone. -/
theorem registry_effect_report (s : Session) (c : Checker) (severity : Severity) (channel : Channel)
    (place : Place) (reason token extra : String) :
    (s.effect c (.report severity channel place reason token extra)).registry = c.registry := by
  rw [effect]
  cases s.locate c place <;> rfl

/-- Putting a checker back where it stands changes nothing. -/
theorem withChecker_self {s : Session} {i : Nat} {c : Checker} (h : s.checkers[i]? = some c) :
    s.withChecker i c = s := by
  obtain ⟨hi, hc⟩ := List.getElem?_eq_some_iff.mp h
  rw [withChecker, ← hc, List.set_getElem_self]

/-- Of two checkers put in one place the second stays. -/
@[simp] theorem withChecker_withChecker (s : Session) (i : Nat) (c c' : Checker) :
    (s.withChecker i c).withChecker i c' = s.withChecker i c' :=
  congrArg (fun checkers => { s with checkers }) (List.set_set c)

/-- The `effect` of a step does not depend on which checkers stand in the session. -/
theorem effect_withChecker (s : Session) (i : Nat) (c c' : Checker) (st : Step) :
    (s.withChecker i c').effect c st = s.effect c st := by
  cases st <;> rfl

/-- Nor does the checker that `next` gives. -/
theorem next_withChecker (s : Session) (i : Nat) (c c' : Checker) (st : Step) :
    (s.withChecker i c').next c st = s.next c st := by
  rw [next, effect_withChecker, next]
  cases st with
  | attach label => cases label <;> rfl
  | _ => rfl

/-- What a step changes in the session, and a checker put into it, do not meet: `share` leaves the
checkers alone. -/
theorem share_withChecker (s : Session) (i : Nat) (c c' : Checker) (st : Step) :
    (s.withChecker i c').share c st = (s.share c st).withChecker i c' := by
  cases st with
  | intern text label => cases label <;> rfl
  | move m =>
    simp only [share]
    cases c.cursor <;> rfl
  | _ => rfl

/-- A step leaves its checker as `next` says and the rest of the session as `share` says, and lets
out what `absorb` makes of its `effect`. -/
theorem stepWith_eq {s : Session} {i : Nat} {c : Checker} (h : s.checkers[i]? = some c)
    (st : Step) :
    (s.stepWith i c st).1 = (s.share c st).withChecker i (s.next c st) ∧
      (s.stepWith i c st).2.emission = (c.absorb (s.effect c st)).2 := by
  -- where a step ends before it does anything the session is left as it was, which `share` and
  -- `next` give as putting `c` back
  have hsame : s = s.withChecker i c := (withChecker_self h).symm
  cases st with
  | check place feature k =>
    simp only [stepWith, atPlace, next, effect, adjust, share]
    cases s.locate c place with
    | error e => exact ⟨hsame, rfl⟩
    | ok loc =>
      cases k.resolve s.resolve with
      | none => exact ⟨hsame, rfl⟩
      | some k => exact ⟨rfl, rfl⟩
  | report severity channel place reason token extra =>
    simp only [stepWith, atPlace, next, effect, adjust, share]
    cases s.locate c place with
    | error e => exact ⟨hsame, rfl⟩
    | ok loc =>
      simp only [Checker.absorb, Checker.receiveAll_singleton]
      exact ⟨rfl, rfl⟩
  | directive line name keyword => exact ⟨rfl, rfl⟩
  | declare place ref b =>
    simp only [stepWith, atPlace, next, effect, adjust, share]
    cases s.locate c place with
    | error e => exact ⟨hsame, rfl⟩
    | ok loc =>
      cases s.resolve ref with
      | none => exact ⟨hsame, rfl⟩
      | some id => exact ⟨rfl, rfl⟩
  | intern name label =>
    simp only [stepWith, next, effect, adjust, Checker.absorb, Checker.receiveAll_map_log]
    cases label <;> exact ⟨rfl, rfl⟩
  | ask q =>
    simp only [stepWith]
    cases q.resolve s.resolve <;> exact ⟨hsame, rfl⟩
  | attach label =>
    cases label with
    | none => exact ⟨rfl, rfl⟩
    | some label =>
      simp only [stepWith, next, adjust]
      cases s.cursor? label with
      | none => exact ⟨hsame, rfl⟩
      | some n => exact ⟨rfl, rfl⟩
  | newCursor label loc =>
    refine ⟨?_, rfl⟩
    show ({ s with cursors := s.cursors ++ [⟨label, loc⟩] } : Session) =
      { s.withChecker i c with cursors := s.cursors ++ [⟨label, loc⟩] }
    rw [← hsame]
  | move m =>
    simp only [stepWith, share]
    cases c.cursor with
    | none => exact ⟨hsame, rfl⟩
    | some n =>
      refine ⟨?_, rfl⟩
      show s.moveCursor n m = { s.withChecker i c with cursors := (s.moveCursor n m).cursors }
      rw [← hsame]
      rfl
  | addError | beginUnit | edit | clearSink => exact ⟨rfl, rfl⟩
  | configuration | errorCount | preamble | text | cursor | location | sink => exact ⟨hsame, rfl⟩

/-! ## Steps and runs -/

/-- `share` leaves the checkers alone. -/
theorem share_checkers (s : Session) (c : Checker) (st : Step) :
    (s.share c st).checkers = s.checkers := by
  cases st with
  | intern name label => cases label <;> rfl
  | move m =>
    simp only [share]
    cases c.cursor <;> rfl
  | _ => rfl

/-- A step with a checker that is there is a `stepWith` it. -/
theorem step_eq_stepWith {s : Session} {i : Nat} {c : Checker} (h : s.checkers[i]? = some c)
    (st : Step) : s.step i st = s.stepWith i c st := by
  rw [step, h]

/-- The checker that a step was taken with is as `next` says. -/
theorem step_checker {s : Session} {i : Nat} {c : Checker} (h : s.checkers[i]? = some c)
    (st : Step) : (s.step i st).1.checkers[i]? = some (s.next c st) := by
  obtain ⟨hi, -⟩ := List.getElem?_eq_some_iff.mp h
  rw [step_eq_stepWith h, (stepWith_eq h st).1, withChecker, share_checkers,
    List.getElem?_set_self hi]

/-- The registry after a step is that of its `effect`. -/
theorem next_registry (s : Session) (c : Checker) (st : Step) :
    (s.next c st).registry = (s.effect c st).registry := by
  have habsorb : (c.absorb (s.effect c st)).1.registry = (s.effect c st).registry := by
    rw [Checker.absorb, Checker.receiveAll_checker]
  rw [next, ← habsorb]
  -- `adjust` is a record update in every case, and none sets the registry
  cases st with
  | attach label => rw [adjust_attach]
  | _ => rfl

/-- The configuration after a step is the one before it, unless the step is an `edit`. -/
theorem next_options (s : Session) (c : Checker) (st : Step) :
    (s.next c st).options =
      match st with
      | .edit e => e.apply c.options
      | _ => c.options := by
  have habsorb : (c.absorb (s.effect c st)).1.options = c.options := by
    rw [Checker.absorb, Checker.receiveAll_checker]
  rw [next]
  cases st with
  | edit e => exact congrArg e.apply habsorb
  | attach label =>
    rw [adjust_attach]
    exact habsorb
  | _ => exact habsorb

/-- A session of one checker is a session of that checker after the step, and has saved what `share`
says. -/
theorem step_solo {s : Session} {c : Checker} (h : s.checkers = [c]) (st : Step) :
    (s.step 0 st).1.checkers = [s.next c st] ∧ (s.step 0 st).1.saved = (s.share c st).saved := by
  have hc : s.checkers[0]? = some c := by rw [h]; rfl
  rw [step_eq_stepWith hc, (stepWith_eq hc st).1]
  refine ⟨?_, rfl⟩
  rw [withChecker, share_checkers, h]
  rfl

/-- What a step lets out is what `absorb` makes of its `effect`. -/
theorem step_emission {s : Session} {i : Nat} {c : Checker} (h : s.checkers[i]? = some c)
    (st : Step) : (s.step i st).2.emission = (c.absorb (s.effect c st)).2 := by
  rw [step_eq_stepWith h, (stepWith_eq h st).2]

/-- A step delivers those reports of its `effect` that the checker lets through. -/
theorem step_delivered {s : Session} {i : Nat} {c : Checker} (h : s.checkers[i]? = some c)
    (st : Step) : (s.step i st).2.emission.delivered =
      (ShaderCompat.reports (s.effect c st).signals).filter c.delivers := by
  rw [step_emission h, Checker.absorb, Checker.receiveAll_delivered]
  rfl

/-- A step with the checker at `j` leaves the one at `i` alone. -/
theorem step_checker_of_ne (s : Session) {i j : Nat} (hij : j ≠ i) (st : Step) :
    (s.step j st).1.checkers[i]? = s.checkers[i]? := by
  cases h : s.checkers[j]? with
  | none => rw [step, h]
  | some c =>
    rw [step_eq_stepWith h, (stepWith_eq h st).1, withChecker, share_checkers,
      List.getElem?_set_ne hij]

/-- `run` takes the first step and then runs the rest. -/
theorem run_cons (s : Session) (i : Nat) (st : Step) (rest : List (Nat × Step)) :
    s.run ((i, st) :: rest) =
      (((s.step i st).1.run rest).1, (s.step i st).2 :: ((s.step i st).1.run rest).2) := rfl

/-- What the steps of a checker keep is so at the end of a run. Only the steps with that checker
need be `ok`: those with others do not touch it. -/
theorem run_checker {P : Checker → Prop} {ok : Step → Prop}
    (hnext : ∀ (s : Session) {c st}, P c → ok st → P (s.next c st)) {s : Session} {i : Nat}
    {c : Checker} (hc : s.checkers[i]? = some c) (h : P c) {steps : List (Nat × Step)}
    (hsteps : ∀ st, (i, st) ∈ steps → ok st) :
    ∃ c', (s.run steps).1.checkers[i]? = some c' ∧ P c' := by
  induction steps generalizing s c with
  | nil => exact ⟨c, hc, h⟩
  | cons p rest ih =>
    obtain ⟨j, st⟩ := p
    have hrest : ∀ st, (i, st) ∈ rest → ok st := fun st hst =>
      hsteps st (List.mem_cons_of_mem _ hst)
    rw [run_cons]
    -- the property moves on only where the step is one of this checker's
    by_cases hj : j = i
    · subst hj
      exact ih (step_checker hc st) (hnext s h (hsteps st List.mem_cons_self)) hrest
    · exact ih ((step_checker_of_ne s hj st).trans hc) h hrest

/-- The reply at `n` is the one that the step at `n` has after the steps before it. -/
theorem getElem?_replies (s : Session) {steps : List (Nat × Step)} {n i : Nat} {st : Step}
    (h : steps[n]? = some (i, st)) :
    (s.run steps).2[n]? = some ((s.run (steps.take n)).1.step i st).2 := by
  induction steps generalizing s n with
  | nil => exact absurd h (by simp)
  | cons p rest ih =>
    obtain ⟨j, st'⟩ := p
    -- the list of steps and the place in it are cut down together
    cases n with
    | zero =>
      obtain ⟨rfl, rfl⟩ : j = i ∧ st' = st := by simpa using h
      rfl
    | succ n =>
      rw [run_cons, List.getElem?_cons_succ, List.take_succ_cons, run_cons]
      exact ih _ h

/-- A run may be cut in two: the second half goes on from where the first has ended. -/
theorem run_append (s : Session) (steps more : List (Nat × Step)) :
    (s.run (steps ++ more)).1 = ((s.run steps).1.run more).1 := by
  induction steps generalizing s with
  | nil => rfl
  | cons p rest ih =>
    obtain ⟨i, st⟩ := p
    rw [List.cons_append, run_cons, run_cons, ih]

/-- A run has one `Reply` for each step. -/
theorem length_replies (s : Session) (steps : List (Nat × Step)) :
    (s.run steps).2.length = steps.length := by
  induction steps generalizing s with
  | nil => rfl
  | cons p rest ih =>
    obtain ⟨i, st⟩ := p
    rw [run_cons, List.length_cons, List.length_cons, ih]

/-- Side by side with its steps the replies of a run are all there, since there is one for each. -/
theorem map_snd_zip_replies (s : Session) (steps : List Step) :
    (steps.zip (s.run (steps.map (0, ·))).2).map Prod.snd = (s.run (steps.map (0, ·))).2 := by
  have hlength : (s.run (steps.map (0, ·))).2.length = steps.length := by
    rw [length_replies, List.length_map]
  exact List.map_snd_zip (Nat.le_of_eq hlength)

/-- What a step is answered does not depend on which checkers stand in the session. -/
theorem answer_withChecker (s : Session) (i : Nat) (c c' : Checker) (st : Step) :
    ((s.withChecker i c').stepWith i c st).2.answer = (s.stepWith i c st).2.answer := by
  cases st with
  | check place feature k =>
    simp only [stepWith, atPlace]
    rw [show (s.withChecker i c').locate c place = s.locate c place from rfl,
      show (s.withChecker i c').resolve = s.resolve from rfl]
    cases s.locate c place with
    | error e => rfl
    | ok loc => cases k.resolve s.resolve <;> rfl
  | report severity channel place reason token extra =>
    simp only [stepWith, atPlace]
    rw [show (s.withChecker i c').locate c place = s.locate c place from rfl]
    cases s.locate c place <;> rfl
  | declare place ref b =>
    simp only [stepWith, atPlace]
    rw [show (s.withChecker i c').locate c place = s.locate c place from rfl,
      show (s.withChecker i c').resolve = s.resolve from rfl]
    cases s.locate c place with
    | error e => rfl
    | ok loc => cases s.resolve ref <;> rfl
  | ask q =>
    simp only [stepWith]
    rw [show (s.withChecker i c').resolve = s.resolve from rfl]
    cases q.resolve s.resolve <;> rfl
  | attach label =>
    cases label with
    | none => rfl
    | some label =>
      simp only [stepWith]
      rw [show (s.withChecker i c').cursor? label = s.cursor? label from rfl]
      cases s.cursor? label <;> rfl
  | move m =>
    simp only [stepWith]
    cases c.cursor <;> rfl
  | _ => rfl

/-- The reply to a step that is taken with a checker `c`. -/
def replyTo (s : Session) (c : Checker) (st : Step) : Reply :=
  ⟨(c.absorb (s.effect c st)).2, (s.stepWith 0 c st).2.answer⟩

/-- `replyTo` is the reply that `step` gives. -/
theorem step_reply {s : Session} {c : Checker} (h : s.checkers[0]? = some c) (st : Step) :
    (s.step 0 st).2 = s.replyTo c st := by
  rw [replyTo, ← step_emission h, step_eq_stepWith h]

/-- The reply to a step does not depend on which checkers stand in the session. -/
theorem replyTo_withChecker (s : Session) (c c' : Checker) (st : Step) :
    (s.withChecker 0 c').replyTo c st = s.replyTo c st := by
  rw [replyTo, replyTo, effect_withChecker, answer_withChecker]

/-- A relation `P` between two checkers that steps keep, as long as they make no difference between
the checkers in what they `share`; and what it says of the replies (`R`). -/
structure Lockstep (ok : Step → Prop) (P : Checker → Checker → Prop)
    (R : Step → Reply → Reply → Prop) : Prop where
  next : ∀ (s : Session) {c c' st}, P c c' → ok st → P (s.next c st) (s.next c' st)
  share : ∀ (s : Session) {c c' st}, P c c' → ok st → s.share c' st = s.share c st
  reply : ∀ (s : Session) {c c' st}, P c c' → ok st → R st (s.replyTo c st) (s.replyTo c' st)

/-- Two checkers in `Lockstep` are driven by the same steps: they stay related, and so is each reply
of the one to that of the other. The second is taken in the place of the first, in one and the same
session. -/
theorem Lockstep.run {ok : Step → Prop} {P : Checker → Checker → Prop}
    {R : Step → Reply → Reply → Prop} (hP : Lockstep ok P R) {s : Session} {c c' : Checker}
    (hs : s.checkers = [c]) (h : P c c') {steps : List Step} (hsteps : ∀ st ∈ steps, ok st) :
    ∃ d d', (s.run (steps.map (0, ·))).1.checkers = [d] ∧
      ((s.withChecker 0 c').run (steps.map (0, ·))).1 =
        (s.run (steps.map (0, ·))).1.withChecker 0 d' ∧ P d d' ∧
      List.Forall₂ (fun x reply' => R x.1 x.2 reply')
        (steps.zip (s.run (steps.map (0, ·))).2)
        ((s.withChecker 0 c').run (steps.map (0, ·))).2 := by
  induction steps generalizing s c c' with
  | nil => exact ⟨c, c', hs, rfl, h, List.Forall₂.nil⟩
  | cons st rest ih =>
    obtain ⟨hst, hrest⟩ := List.forall_mem_cons.mp hsteps
    have hhead : s.checkers[0]? = some c := by rw [hs]; rfl
    have hcopy : (s.withChecker 0 c').checkers[0]? = some c' := by rw [withChecker, hs]; rfl
    -- after the step the one session is again the other but for the checker
    have hstep : ((s.withChecker 0 c').step 0 st).1 =
        (s.step 0 st).1.withChecker 0 (s.next c' st) := by
      rw [step_eq_stepWith hhead, step_eq_stepWith hcopy, (stepWith_eq hhead st).1,
        (stepWith_eq hcopy st).1, next_withChecker, share_withChecker, hP.share s h hst,
        withChecker_withChecker, withChecker_withChecker]
    have hreply : R st (s.step 0 st).2 ((s.withChecker 0 c').step 0 st).2 := by
      rw [step_reply hhead, step_reply hcopy, replyTo_withChecker]
      exact hP.reply s h hst
    obtain ⟨d, d', hd, hrun, hend, hreplies⟩ := ih (step_solo hs st).1 (hP.next s h hst) hrest
    rw [List.map_cons, run_cons, run_cons, hstep]
    exact ⟨d, d', hd, hrun, hend, List.Forall₂.cons hreply hreplies⟩

/-- A relation `P` between two checkers that steps keep, as long as they tell the checkers apart
neither by what they `share` nor by their answers. -/
structure Bisimulation (ok : Step → Prop) (P : Checker → Checker → Prop) : Prop where
  next : ∀ (s : Session) {c c' st}, P c c' → ok st → P (s.next c st) (s.next c' st)
  share : ∀ (s : Session) {c c' st}, P c c' → ok st → s.share c' st = s.share c st
  answer : ∀ (s : Session) {c c' st}, P c c' → ok st →
    (s.stepWith 0 c' st).2.answer = (s.stepWith 0 c st).2.answer

/-- A `Bisimulation` is a `Lockstep` that says of the replies that their answers are equal. -/
theorem Bisimulation.lockstep {ok : Step → Prop} {P : Checker → Checker → Prop}
    (hP : Bisimulation ok P) : Lockstep ok P fun _ reply reply' => reply'.answer = reply.answer :=
  ⟨hP.next, hP.share, hP.answer⟩

/-- Two checkers in a `Bisimulation` are driven by the same steps: they stay related, and the runs
have the same answers. -/
theorem Bisimulation.run {ok : Step → Prop} {P : Checker → Checker → Prop}
    (hP : Bisimulation ok P) {s : Session} {c c' : Checker} (hs : s.checkers = [c]) (h : P c c')
    {steps : List Step} (hsteps : ∀ st ∈ steps, ok st) :
    ∃ d d', (s.run (steps.map (0, ·))).1.checkers = [d] ∧
      ((s.withChecker 0 c').run (steps.map (0, ·))).1 =
        (s.run (steps.map (0, ·))).1.withChecker 0 d' ∧
      ((s.withChecker 0 c').run (steps.map (0, ·))).2.map Reply.answer =
        (s.run (steps.map (0, ·))).2.map Reply.answer ∧ P d d' := by
  obtain ⟨d, d', hd, hrun, hend, hreplies⟩ := hP.lockstep.run hs h hsteps
  refine ⟨d, d', hd, hrun, ?_, hend⟩
  have hanswers : List.Forall₂ (fun answer answer' => answer = answer')
      (((steps.zip (s.run (steps.map (0, ·))).2).map Prod.snd).map Reply.answer)
      (((s.withChecker 0 c').run (steps.map (0, ·))).2.map Reply.answer) := by
    rw [List.map_map, List.forall₂_map_left_iff, List.forall₂_map_right_iff]
    exact hreplies.imp fun _ _ h => h.symm
  rw [List.forall₂_eq_eq_eq, map_snd_zip_replies] at hanswers
  exact hanswers.symm

end Session

end ShaderCompat
