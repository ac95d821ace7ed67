import ShaderCompat.Proofs.Session.Effect

/-!
# The error counter is the error history

A checker reports in many ways, and its host may clear the sink or add errors by hand at any time.
Over a whole run the counter still tells exactly what happened: it has grown by the errors that
were ever handed to the sink, those thrown away later included, and by those added by hand. The
history that says so is kept beside the run, from what each step let out; that nothing is missing
from it shows in the sink, which holds what was handed to it since it was last cleared.
-/

namespace ShaderCompat

/-- What happened to the reports of one checker. -/
structure History where
  /-- Every diagnostic that the sink was handed. -/
  delivered : List Diagnostic := []
  /-- What of it the sink has kept. -/
  kept : List Diagnostic
  /-- How many errors were added by hand. -/
  added : Nat := 0

namespace History

/-- The history after a step that delivered some diagnostics. -/
def note (h : History) (st : Step) (ds : List Diagnostic) : History where
  delivered := h.delivered ++ ds
  kept :=
    match st with
    | .clearSink => []
    | _ => h.kept ++ ds
  added :=
    match st with
    | .addError => h.added + 1
    | _ => h.added

/-- A step adds what it delivered to the history, also if it clears the sink. -/
theorem delivered_note (h : History) (st : Step) (ds : List Diagnostic) :
    (h.note st ds).delivered = h.delivered ++ ds := rfl

/-- The errors added by hand never become fewer. -/
theorem added_le_note (h : History) (st : Step) (ds : List Diagnostic) :
    h.added ≤ (h.note st ds).added := by
  cases st with
  | addError => exact Nat.le_succ _
  | _ => exact Nat.le_refl _

/-- A checker bears a history out: its sink holds what was kept, and its counter has grown, from
`start`, by the errors delivered and added. -/
structure Explains (h : History) (start : Nat) (c : Checker) : Prop where
  sink : c.sink = .recording h.kept
  errors : c.errors = start + (errorsOf h.delivered).length + h.added

/-- Taking signals in with `absorb` writes what they deliver into the history. -/
theorem Explains.absorb {h : History} {start : Nat} {c : Checker} (hc : h.Explains start c)
    (u : Update) :
    (c.absorb u).1.sink = .recording (h.kept ++ (c.absorb u).2.delivered) ∧
      (c.absorb u).1.errors =
        start + (errorsOf (h.delivered ++ (c.absorb u).2.delivered)).length + h.added := by
  unfold Checker.absorb
  rw [Checker.receiveAll_checker, Checker.receiveAll_delivered]
  constructor
  · show c.sink.acceptAll _ = _
    rw [hc.sink, Sink.acceptAll_recording]
  · show c.errors + _ = _
    rw [hc.errors, errorsOf_append, Checker.errorsOf_filter_delivers, List.length_append]
    omega

/-- One step: whatever it does, the checker bears out the history with the step in it. -/
theorem Explains.next {h : History} {start : Nat} {c : Checker} (hc : h.Explains start c)
    (s : Session) (st : Step) :
    (h.note st (c.absorb (s.effect c st)).2.delivered).Explains start (s.next c st) := by
  obtain ⟨hsink, herrors⟩ := hc.absorb (s.effect c st)
  unfold Session.next
  cases st with
  | addError => exact ⟨hsink, congrArg (· + 1) herrors⟩
  | clearSink =>
    refine ⟨?_, herrors⟩
    show (c.absorb _).1.sink.clear = .recording []
    rw [hsink]
    rfl
  | attach label =>
    rw [Session.adjust_attach]
    exact ⟨hsink, herrors⟩
  | _ => exact ⟨hsink, herrors⟩

end History

namespace Session

/-- The history of the checker at a place, over a run. -/
def history (i : Nat) (s : Session) (h : History) : List (Nat × Step) → History
  | [] => h
  | (j, st) :: rest =>
    history i (s.step j st).1
      (if j = i then h.note st (s.step j st).2.emission.delivered else h) rest

/-- A whole run: the checker bears out the history of the run. -/
theorem explains_history {s : Session} {i : Nat} {c : Checker} {h : History} {start : Nat}
    (hc : s.checkers[i]? = some c) (hexp : h.Explains start c) (steps : List (Nat × Step)) :
    ∃ c', (s.run steps).1.checkers[i]? = some c' ∧ (s.history i h steps).Explains start c' := by
  -- steps of other checkers leave both the checker and its history alone
  induction steps generalizing s c h with
  | nil => exact ⟨c, hc, hexp⟩
  | cons step rest ih =>
    obtain ⟨j, st⟩ := step
    rw [run_cons, history]
    by_cases hj : j = i
    · subst hj
      rw [if_pos rfl, step_emission hc]
      exact ih (step_checker hc st) (hexp.next s st)
    · rw [if_neg hj]
      refine ih ?_ hexp
      rw [step_checker_of_ne s hj, hc]

/-- Over every run the counter of a checker grows by the errors that were ever delivered to its sink
and by those added by hand, and by nothing else; the sink holds what it was handed since it was last
cleared. A further step, of whatever checker, never lowers the counter, and clearing the sink leaves
it as it is. -/
theorem errors_eq_history {s : Session} {i : Nat} {c : Checker} {kept : List Diagnostic}
    (hc : s.checkers[i]? = some c) (hsink : c.sink = .recording kept)
    (steps : List (Nat × Step)) :
    ∃ c', (s.run steps).1.checkers[i]? = some c' ∧
      c'.sink = .recording (s.history i { kept } steps).kept ∧
      c'.errors = c.errors + (errorsOf (s.history i { kept } steps).delivered).length +
        (s.history i { kept } steps).added ∧
      ∀ j st, ∃ c'', ((s.run steps).1.step j st).1.checkers[i]? = some c'' ∧
        c'.errors ≤ c''.errors ∧ (st = .clearSink → c''.errors = c'.errors) := by
  have hstart : History.Explains { kept } c.errors c := ⟨hsink, rfl⟩
  obtain ⟨c', hc', hexp⟩ := explains_history hc hstart steps
  refine ⟨c', hc', hexp.sink, hexp.errors, fun j st => ?_⟩
  by_cases hj : j = i
  · subst hj
    have hnext := hexp.next (s.run steps).1 st
    refine ⟨_, step_checker hc' st, ?_, ?_⟩
    · have hadded := History.added_le_note (s.history j { kept } steps) st
        (c'.absorb ((s.run steps).1.effect c' st)).2.delivered
      rw [hexp.errors, hnext.errors, History.delivered_note, errorsOf_append, List.length_append]
      omega
    · rintro rfl
      rfl
  · refine ⟨c', ?_, Nat.le_refl _, fun _ => rfl⟩
    rw [step_checker_of_ne _ hj, hc']

/-- An error that was thrown away is still counted. -/
theorem errors_eq_history_cleared :
    ∃ c', (Session.run { checkers := [.start {} 1 (.recording [])] }
        [(0, .report .error .parse (.at {}) "a" "b" "c"),
          (0, .report .warning .parse (.at {}) "a" "b" "c"), (0, .clearSink),
          (0, .addError)]).1.checkers[0]? = some c' ∧
      c'.sink = .recording [] ∧ c'.errors = 2 := by
  obtain ⟨c', hc', hsink, herrors, -⟩ := errors_eq_history (i := 0)
    (s := { checkers := [.start {} 1 (.recording [])] }) rfl rfl
    [(0, .report .error .parse (.at {}) "a" "b" "c"),
      (0, .report .warning .parse (.at {}) "a" "b" "c"), (0, .clearSink), (0, .addError)]
  exact ⟨c', hc', hsink, herrors⟩

end Session

end ShaderCompat
