import ShaderCompat.Checker

/-!
# What a checker does with signals

Signals come in one after another, but what becomes of a list of them can be said at once: of its
reports the checker delivers those that the configuration lets through, its sink takes these in
order, and the counter grows by the number of errors. Errors are always let through, so counting
them before or after makes no difference.
-/

namespace ShaderCompat

/-- The report that a signal is, if it is no `log`. -/
def Signal.report? : Signal → Option Diagnostic
  | .log _ => none
  | .report d => some d

/-- The reports among some signals, in order, without the entries of the log. -/
def reports (signals : List Signal) : List Diagnostic := signals.filterMap Signal.report?

@[simp] theorem reports_report (d : Diagnostic) (rest : List Signal) :
    reports (.report d :: rest) = d :: reports rest := rfl

/-- Of reports alone, `reports` has all. -/
@[simp] theorem reports_map_report (ds : List Diagnostic) : reports (ds.map .report) = ds := by
  rw [reports, List.filterMap_map]
  exact List.filterMap_some

/-- Of log entries alone, `reports` has none. -/
@[simp] theorem reports_map_log (events : List Event) : reports (events.map .log) = [] := by
  simp [reports, Signal.report?, List.filterMap_map]

/-- `reports` takes lists apart. -/
@[simp] theorem reports_append (a b : List Signal) : reports (a ++ b) = reports a ++ reports b :=
  List.filterMap_append

/-- The errors among some diagnostics, in order, without the warnings (`Diagnostic.isError`). -/
def errorsOf (ds : List Diagnostic) : List Diagnostic := ds.filter Diagnostic.isError

/-- `errorsOf` takes lists apart. -/
@[simp] theorem errorsOf_append (a b : List Diagnostic) :
    errorsOf (a ++ b) = errorsOf a ++ errorsOf b :=
  List.filter_append ..

/-- Among warnings `errorsOf` finds nothing. -/
theorem errorsOf_eq_nil {ds : List Diagnostic} (h : ∀ d ∈ ds, d.isError = false) :
    errorsOf ds = [] :=
  List.filter_eq_nil_iff.mpr fun d hd => Bool.eq_false_iff.mp (h d hd)

namespace Sink

/-- The sink after some reports, each by `accept`. -/
def acceptAll (ds : List Diagnostic) (sink : Sink) : Sink := ds.foldl (fun s d => s.accept d) sink

@[simp] theorem acceptAll_nil (sink : Sink) : sink.acceptAll [] = sink := rfl

/-- `acceptAll` starts at the front. -/
theorem acceptAll_cons (d : Diagnostic) (ds : List Diagnostic) (sink : Sink) :
    sink.acceptAll (d :: ds) = (sink.accept d).acceptAll ds := rfl

/-- A `recording` sink keeps whatever it is given, behind what it has. -/
theorem acceptAll_recording (ds kept : List Diagnostic) :
    (recording kept).acceptAll ds = recording (kept ++ ds) := by
  induction ds generalizing kept with
  | nil => rw [acceptAll_nil, List.append_nil]
  | cons d ds ih =>
    rw [acceptAll_cons]
    show (recording (kept ++ [d])).acceptAll ds = recording (kept ++ d :: ds)
    rw [ih, List.append_assoc, List.singleton_append]

/-- To `accept` a report does not change where the next one goes. -/
theorem events_accept (d d' : Diagnostic) (sink : Sink) :
    (sink.accept d').events d = sink.events d := by
  cases sink <;> rfl

/-- Reports may be accepted in two lots: `acceptAll` is a fold. -/
theorem acceptAll_append (ds es : List Diagnostic) (sink : Sink) :
    sink.acceptAll (ds ++ es) = (sink.acceptAll ds).acceptAll es :=
  List.foldl_append ..

/-- What a sink has kept does not tell of which kind it is: `clear` forgets it. -/
theorem clear_acceptAll (ds : List Diagnostic) (sink : Sink) :
    (sink.acceptAll ds).clear = sink.clear := by
  induction ds generalizing sink with
  | nil => rfl
  | cons d ds ih =>
    rw [acceptAll_cons, ih]
    cases sink <;> rfl

/-- Sinks of one kind, which are the same after `clear`, write the same into the log. -/
theorem events_of_clear {sink sink' : Sink} (h : sink'.clear = sink.clear) (d : Diagnostic) :
    sink'.events d = sink.events d := by
  cases sink <;> cases sink' <;> first | rfl | exact absurd h (by simp [clear])

end Sink

/-- The empty emission is neutral behind `++`. -/
theorem Emission.append_empty (e : Emission) : e ++ ({} : Emission) = e := by
  obtain ⟨delivered, events⟩ := e
  show Emission.mk (delivered ++ []) (events ++ []) = _
  rw [List.append_nil, List.append_nil]

namespace Checker

/-- A checker always `delivers` errors. -/
theorem delivers_of_isError {c : Checker} {d : Diagnostic} (h : d.isError = true) :
    c.delivers d = true := by
  rw [delivers, h, Bool.true_or]

/-- Everything is delivered unless `suppressWarnings` is set. -/
theorem delivers_of_not_suppressed {c : Checker}
    (h : c.options.messages.suppressWarnings = false) (d : Diagnostic) : c.delivers d = true := by
  rw [delivers, h, Bool.not_false, Bool.or_true]

/-- Suppression takes the warnings away, and leaves `errorsOf` the list. -/
theorem filter_delivers (c : Checker) (ds : List Diagnostic) :
    ds.filter c.delivers = if c.options.messages.suppressWarnings then errorsOf ds else ds := by
  by_cases hsuppressed : c.options.messages.suppressWarnings = true
  · rw [if_pos hsuppressed]
    refine List.filter_congr fun d _ => ?_
    rw [delivers, hsuppressed, Bool.not_true, Bool.or_false]
  · rw [if_neg hsuppressed, List.filter_eq_self]
    exact fun d _ => delivers_of_not_suppressed (Bool.eq_false_iff.mpr hsuppressed) d

/-- Of warnings a checker `delivers` all or none. -/
theorem filter_delivers_of_warnings (c : Checker) {ds : List Diagnostic}
    (h : ∀ d ∈ ds, d.isError = false) :
    ds.filter c.delivers = if c.options.messages.suppressWarnings then [] else ds := by
  rw [filter_delivers, errorsOf_eq_nil h]

/-- What a checker `delivers` has all the errors. -/
theorem errorsOf_filter_delivers (c : Checker) (ds : List Diagnostic) :
    errorsOf (ds.filter c.delivers) = errorsOf ds := by
  rw [errorsOf, errorsOf, List.filter_filter]
  refine List.filter_congr fun d _ => ?_
  cases h : d.isError with
  | false => rfl
  | true => rw [delivers_of_isError h, Bool.and_self]

/-- A report that is delivered goes to the sink, and raises `errors` if it is an error. -/
theorem receive_of_delivers {c : Checker} {d : Diagnostic} (h : c.delivers d = true) :
    c.receive (.report d) =
      ({ c with sink := c.sink.accept d, errors := c.errors + d.isError.toNat },
        { delivered := [d], events := c.sink.events d }) := by
  rw [receive, if_pos h]

/-- `receive` leaves no trace of a report that is not delivered. -/
theorem receive_of_not_delivers {c : Checker} {d : Diagnostic} (h : ¬c.delivers d = true) :
    c.receive (.report d) = (c, {}) := by
  rw [receive, if_neg h]

/-- `receiveAll` starts at the front. -/
theorem receiveAll_cons (c : Checker) (signal : Signal) (rest : List Signal) :
    c.receiveAll (signal :: rest) =
      (((c.receive signal).1.receiveAll rest).1,
        (c.receive signal).2 ++ ((c.receive signal).1.receiveAll rest).2) := rfl

theorem receiveAll_singleton (c : Checker) (signal : Signal) :
    c.receiveAll [signal] = c.receive signal := by
  rw [receiveAll_cons]
  show ((c.receive signal).1, (c.receive signal).2 ++ ({} : Emission)) = c.receive signal
  rw [Emission.append_empty]

/-- Entries of the log alone leave the checker as it is, and are let out. -/
theorem receiveAll_map_log (c : Checker) (events : List Event) :
    c.receiveAll (events.map .log) = (c, { events }) := by
  induction events with
  | nil => rfl
  | cons event rest ih =>
    rw [List.map_cons, receiveAll_cons]
    show ((c.receiveAll (rest.map .log)).1,
      ({ events := [event] } : Emission) ++ (c.receiveAll (rest.map .log)).2) = _
    rw [ih]
    rfl

/-- All that taking signals in changes are the `sink` and the counter `errors`. -/
theorem receiveAll_checker (c : Checker) (signals : List Signal) :
    (c.receiveAll signals).1 =
      { c with
        sink := c.sink.acceptAll ((reports signals).filter c.delivers)
        errors := c.errors + (errorsOf (reports signals)).length } := by
  -- the checker changes from one signal to the next, though not in what it delivers
  induction signals generalizing c with
  | nil => rfl
  | cons signal rest ih =>
    cases signal with
    | log event => exact ih c
    | report d =>
      rw [receiveAll_cons, reports_report, List.filter_cons]
      by_cases hd : c.delivers d = true
      · rw [receive_of_delivers hd, if_pos hd, ih, Sink.acceptAll_cons]
        have hcount : d.isError.toNat + (errorsOf (reports rest)).length =
            (errorsOf (d :: reports rest)).length := by
          unfold errorsOf
          cases herr : d.isError <;> simp [herr, Nat.add_comm]
        rw [← hcount, ← Nat.add_assoc]
        rfl
      · -- what is not delivered is a warning, and not counted
        have herr : ¬d.isError = true := fun h => hd (delivers_of_isError h)
        rw [receive_of_not_delivers hd, if_neg hd, ih, errorsOf, errorsOf,
          List.filter_cons_of_neg herr]

/-- What is let out are the reports that the configuration lets through. -/
theorem receiveAll_delivered (c : Checker) (signals : List Signal) :
    (c.receiveAll signals).2.delivered = (reports signals).filter c.delivers := by
  induction signals generalizing c with
  | nil => rfl
  | cons signal rest ih =>
    cases signal with
    | log event => exact ih c
    | report d =>
      rw [receiveAll_cons, reports_report, List.filter_cons]
      show (c.receive (.report d)).2.delivered ++
        ((c.receive (.report d)).1.receiveAll rest).2.delivered = _
      rw [ih]
      by_cases hd : c.delivers d = true
      · rw [receive_of_delivers hd, if_pos hd]
        rfl
      · rw [receive_of_not_delivers hd, if_neg hd]
        rfl

/-- The log entries that a signal leaves when the checker takes it in: a report leaves one if it is
delivered to a `tracing` sink. -/
def logged (c : Checker) : Signal → List Event
  | .log event => [event]
  | .report d => if c.delivers d then c.sink.events d else []

/-- The log has what is `logged` of each signal, in order. -/
theorem receiveAll_events (c : Checker) (signals : List Signal) :
    (c.receiveAll signals).2.events = signals.flatMap c.logged := by
  induction signals generalizing c with
  | nil => rfl
  | cons signal rest ih =>
    rw [receiveAll_cons, List.flatMap_cons]
    show (c.receive signal).2.events ++ ((c.receive signal).1.receiveAll rest).2.events = _
    rw [ih]
    cases signal with
    | log event => rfl
    | report d =>
      by_cases hd : c.delivers d = true
      · -- a report changes the checker, but not the kind of its sink
        have hlogged : ({ c with
            sink := c.sink.accept d
            errors := c.errors + d.isError.toNat } : Checker).logged = c.logged := by
          funext signal
          cases signal with
          | log event => rfl
          | report d' =>
            show (if c.delivers d' then (c.sink.accept d).events d' else []) = _
            rw [Sink.events_accept]
            rfl
        rw [receive_of_delivers hd, hlogged, logged, if_pos hd]
      · rw [receive_of_not_delivers hd, logged, if_neg hd]

/-- The checker after some reports have reached its sink: the errors among them raise `errors`. -/
def credit (ds : List Diagnostic) (c : Checker) : Checker :=
  { c with sink := c.sink.acceptAll ds, errors := c.errors + (errorsOf ds).length }

@[simp] theorem credit_nil (c : Checker) : c.credit [] = c := rfl

/-- Reports that reach the sink in two lots may as well come in one `credit`. -/
@[simp] theorem credit_credit (c : Checker) (ds es : List Diagnostic) :
    (c.credit ds).credit es = c.credit (ds ++ es) := by
  rw [credit, credit, credit, Sink.acceptAll_append, errorsOf_append, List.length_append,
    Nat.add_assoc]

/-- Of the signals that a checker takes in, those count that it `delivers`. -/
theorem receiveAll_eq_credit (c : Checker) (signals : List Signal) :
    (c.receiveAll signals).1 = c.credit (c.receiveAll signals).2.delivered := by
  rw [receiveAll_checker, receiveAll_delivered, credit, errorsOf_filter_delivers]

/-- What a checker lets out depends on its message switches and on the kind of its sink, which is
what is left of it by `clear`. -/
theorem receiveAll_emission_congr {c c' : Checker}
    (hmessages : c'.options.messages = c.options.messages)
    (hsink : c'.sink.clear = c.sink.clear) (signals : List Signal) :
    (c'.receiveAll signals).2 = (c.receiveAll signals).2 := by
  have hdelivers : c'.delivers = c.delivers := by
    funext d
    rw [delivers, delivers, hmessages]
  have hlogged : c'.logged = c.logged := by
    funext signal
    cases signal with
    | log event => rfl
    | report d => rw [logged, logged, hdelivers, Sink.events_of_clear hsink]
  have hdelivered := c'.receiveAll_delivered signals
  rw [hdelivers, ← receiveAll_delivered] at hdelivered
  have hevents := c'.receiveAll_events signals
  rw [hlogged, ← receiveAll_events] at hevents
  calc (c'.receiveAll signals).2
      = ⟨(c'.receiveAll signals).2.delivered, (c'.receiveAll signals).2.events⟩ := rfl
    _ = ⟨(c.receiveAll signals).2.delivered, (c.receiveAll signals).2.events⟩ := by
      rw [hdelivered, hevents]

/-- Reports alone leave an entry each in the log, if they are delivered to it. -/
theorem receiveAll_map_report_events (c : Checker) (ds : List Diagnostic) :
    (c.receiveAll (ds.map .report)).2.events = (ds.filter c.delivers).flatMap c.sink.events := by
  rw [receiveAll_events]
  induction ds with
  | nil => rfl
  | cons d ds ih =>
    rw [List.map_cons, List.flatMap_cons, ih, logged, List.filter_cons]
    by_cases hd : c.delivers d = true
    · rw [if_pos hd, if_pos hd, List.flatMap_cons]
    · rw [if_neg hd, if_neg hd, List.nil_append]

/-- A check that writes `events` into the log and then makes reports, and is refused nothing. -/
theorem check_of_run {c : Checker} {loc : Location} {feature : String} (k : Check ExtensionId)
    (events : List Event) (made : List Diagnostic)
    (h : k.run c.options c.registry loc feature =
      ⟨events.map .log ++ made.map .report, .ok ()⟩) {ds : List Diagnostic} {n : Nat}
    (hds : made.filter c.delivers = ds) (hn : (errorsOf made).length = n) :
    c.check loc feature k =
      ({ c with sink := c.sink.acceptAll ds, errors := c.errors + n },
        ⟨ds, events ++ ds.flatMap c.sink.events⟩, .ok ()) := by
  have hreports : reports (events.map .log ++ made.map .report) = made := by
    rw [reports_append, reports_map_log, reports_map_report, List.nil_append]
  have hlogged : (events.map Signal.log).flatMap c.logged = events := by
    rw [List.flatMap_map]
    exact List.flatMap_singleton' events
  have hevents := c.receiveAll_map_report_events made
  rw [receiveAll_events, hds] at hevents
  have hchecker : (c.receiveAll (events.map .log ++ made.map .report)).1 =
      { c with sink := c.sink.acceptAll ds, errors := c.errors + n } := by
    rw [receiveAll_checker, hreports, hds, hn]
  have hemission : (c.receiveAll (events.map .log ++ made.map .report)).2 =
      ⟨ds, events ++ ds.flatMap c.sink.events⟩ := by
    calc (c.receiveAll (events.map .log ++ made.map .report)).2
        = ⟨(c.receiveAll (events.map .log ++ made.map .report)).2.delivered,
            (c.receiveAll (events.map .log ++ made.map .report)).2.events⟩ := rfl
      _ = ⟨ds, events ++ ds.flatMap c.sink.events⟩ := by
        rw [receiveAll_delivered, hreports, hds, receiveAll_events, List.flatMap_append, hlogged,
          hevents]
  rw [check, h]
  exact Prod.ext hchecker (Prod.ext hemission rfl)

end Checker

end ShaderCompat
