import ShaderCompat.Proofs.Gate.Extension
import ShaderCompat.Proofs.Gate.Parts
import ShaderCompat.Proofs.Reporting

/-!
# What relaxed errors change in a check

The switch for relaxed errors is read in two places. It makes warnings of profile and version
refusals, and it lets an extension gate pass on account of an extension that is disabled. Nothing
else depends on it, so `Check.leniency` tells for each gate what becomes of its error, and
`Check.raised` lists the errors of a strict check with what becomes of each. `loosened_run` says
that the list is right: the relaxed check ends as the strict one does, its errors are the ones that
stay, and those that are demoted are among its warnings.
-/

namespace ShaderCompat

/-- The options with `relaxedErrors` switched on or off. -/
def Options.relaxing (o : Options) (on : Bool) : Options :=
  { o with messages := { o.messages with relaxedErrors := on } }

/-- What `relaxedErrors` makes of the error of a gate. -/
inductive Leniency where
  /-- It stays an `error`. -/
  | kept
  /-- It becomes a `warning`. -/
  | demoted
  /-- It is not reported: the feature may be used on account of a disabled extension. -/
  | tolerated
deriving DecidableEq, Repr

/-- Whether an extension is turned off by name, with `disable`. -/
def Registry.isDisabled (r : Registry) (id : ExtensionId) : Bool :=
  match r.behavior id with
  | .ok b => b = .disable
  | .error _ => false

/-- What `relaxedErrors` makes of the error of a gate while behaviors are as recorded. -/
def Check.leniency (r : Registry) : Check ExtensionId → Leniency
  | .profile _ | .version .. => .demoted
  | .extensions _ ids => if ids.any r.isDisabled then .tolerated else .kept
  | _ => .kept

/-- The report as a `warning`, whatever it was. -/
def Diagnostic.demote (d : Diagnostic) : Diagnostic := { d with severity := .warning }

/-- The signal, as a `warning` if it is a report. -/
def Signal.demote : Signal → Signal
  | .log event => .log event
  | .report d => .report d.demote

/-! ## Lists of reports -/

/-- `log` accounts for the difference between the reports of a `strict` and of a `relaxed` run: it
lists the errors of the strict run with what the relaxed run makes of each. -/
structure Loosened (log : List (Leniency × Diagnostic)) (strict relaxed : List Diagnostic) :
    Prop where
  all : errorsOf strict = log.map Prod.snd
  kept : errorsOf relaxed = (log.filter fun x => x.1 = .kept).map Prod.snd
  demoted : ((log.filter fun x => x.1 = .demoted).map fun x => x.2.demote).Sublist relaxed

/-- Errors that all meet the same fate `l`. -/
def allAs (l : Leniency) (ds : List Diagnostic) : List (Leniency × Diagnostic) := ds.map (l, ·)

/-- `allAs` keeps the reports. -/
theorem map_snd_allAs (l : Leniency) (ds : List Diagnostic) : (allAs l ds).map Prod.snd = ds := by
  rw [allAs, List.map_map]
  exact List.map_id ds

/-- Errors that all meet the fate `l`. -/
theorem filter_allAs_self (l : Leniency) (ds : List Diagnostic) :
    ((allAs l ds).filter fun x => x.1 = l) = allAs l ds := by
  refine List.filter_eq_self.mpr fun x hx => ?_
  obtain ⟨d, -, rfl⟩ := List.mem_map.mp hx
  exact decide_eq_true rfl

/-- None of them meets another fate `l'`. -/
theorem filter_allAs_of_ne {l l' : Leniency} (h : l ≠ l') (ds : List Diagnostic) :
    ((allAs l ds).filter fun x => x.1 = l') = [] := by
  refine List.filter_eq_nil_iff.mpr fun x hx => ?_
  obtain ⟨d, -, rfl⟩ := List.mem_map.mp hx
  intro hl
  exact h (of_decide_eq_true hl)

/-- After `demote` no report is an error. -/
theorem errorsOf_map_demote (ds : List Diagnostic) : errorsOf (ds.map Diagnostic.demote) = [] := by
  refine List.filter_eq_nil_iff.mpr fun d hd => ?_
  obtain ⟨d', -, rfl⟩ := List.mem_map.mp hd
  exact Bool.false_ne_true

/-- To `demote` signals is to `demote` their reports. -/
theorem reports_map_demote (signals : List Signal) :
    reports (signals.map Signal.demote) = (reports signals).map Diagnostic.demote := by
  induction signals with
  | nil => rfl
  | cons signal rest ih =>
    cases signal with
    | log event => exact ih
    | report d => exact congrArg (d.demote :: ·) ih

namespace Loosened

/-- Without reports there is nothing for `Loosened` to account for. -/
theorem nil : Loosened [] [] [] := ⟨rfl, rfl, List.nil_sublist _⟩

/-- Accounts append: those of two runs are one account of both. -/
theorem append {log log' : List (Leniency × Diagnostic)} {ds ds' es es' : List Diagnostic}
    (h : Loosened log ds es) (h' : Loosened log' ds' es') :
    Loosened (log ++ log') (ds ++ ds') (es ++ es') := by
  refine ⟨?_, ?_, ?_⟩
  · rw [errorsOf_append, h.all, h'.all, List.map_append]
  · rw [errorsOf_append, h.kept, h'.kept, List.filter_append, List.map_append]
  · rw [List.filter_append, List.map_append]
    exact h.demoted.append h'.demoted

/-- Reports that do not depend on the switch are all `kept`. -/
theorem same (ds : List Diagnostic) : Loosened (allAs .kept (errorsOf ds)) ds ds := by
  refine ⟨(map_snd_allAs _ _).symm, ?_, ?_⟩
  · rw [filter_allAs_self, map_snd_allAs]
  · rw [filter_allAs_of_ne (by decide)]
    exact List.nil_sublist _

/-- Reports that the switch makes warnings of are all `demoted`. -/
theorem demote (ds : List Diagnostic) :
    Loosened (allAs .demoted (errorsOf ds)) ds (ds.map Diagnostic.demote) := by
  refine ⟨(map_snd_allAs _ _).symm, ?_, ?_⟩
  · rw [filter_allAs_of_ne (by decide), errorsOf_map_demote]
    rfl
  · rw [filter_allAs_self, allAs, List.map_map]
    exact List.filter_sublist.map Diagnostic.demote

/-- Reports whose errors are not there under the switch are `tolerated`. -/
theorem tolerate (ds : List Diagnostic) {es : List Diagnostic} (h : errorsOf es = []) :
    Loosened (allAs .tolerated (errorsOf ds)) ds es := by
  refine ⟨(map_snd_allAs _ _).symm, ?_, ?_⟩
  · rw [filter_allAs_of_ne (by decide), h]
    rfl
  · rw [filter_allAs_of_ne (by decide)]
    exact List.nil_sublist _

end Loosened

/-! ## Demotion -/

namespace Outcome

/-- The computation with warnings in place of reports: each of its signals by `Signal.demote`. -/
def demote {α : Type} (x : Outcome α) : Outcome α := ⟨x.signals.map Signal.demote, x.result⟩

/-- Computations in a row may be demoted one by one, since `demote` leaves results alone. -/
theorem demote_bind {α β : Type} (x : Outcome α) (f : α → Outcome β) :
    (x >>= f).demote = x.demote >>= fun a => (f a).demote := by
  cases h : x.result with
  | error e =>
    rw [bind_of_error h, bind_of_error (x := x.demote) h]
    rfl
  | ok a =>
    rw [bind_of_ok h, bind_of_ok (x := x.demote) h]
    exact congrArg (Outcome.mk · (f a).result) (List.map_append)

@[simp] theorem demote_pure {α : Type} (a : α) : (pure a : Outcome α).demote = pure a := rfl

@[simp] theorem demote_liftM {α : Type} (x : Except Refusal α) :
    (liftM x : Outcome α).demote = liftM x := rfl

@[simp] theorem demote_ite {α : Type} (p : Prop) [Decidable p] (x y : Outcome α) :
    (if p then x else y).demote = if p then x.demote else y.demote := apply_ite demote p x y

/-- Going through a list by `mapM` gives off no more than warnings if each step does. -/
theorem demote_mapM {α β : Type} {f : α → Outcome β} (h : ∀ a, (f a).demote = f a)
    (as : List α) : (as.mapM f).demote = as.mapM f := by
  induction as with
  | nil => rfl
  | cons a as ih => simp only [List.mapM_cons, demote_bind, h, ih, demote_pure]

end Outcome

namespace Gate

open Outcome

@[simp] theorem demote_warning (loc : Location) (reason feature extra : String) :
    (warning loc reason feature extra).demote = warning loc reason feature extra := rfl

/-- `consult` only warns of an extension. -/
theorem demote_consult (r : Registry) (loc : Location) (feature : String) (id : ExtensionId) :
    (consult r loc feature id).demote = consult r loc feature id := by
  simp only [consult, demote_bind, demote_ite, demote_liftM, demote_warning, demote_pure]

end Gate

/-- A computation that `demote` does not change reports no error. -/
theorem Outcome.errorsOf_of_demote {α : Type} {x : Outcome α} (h : x.demote = x) :
    errorsOf (reports x.signals) = [] := by
  have hsignals : x.signals.map Signal.demote = x.signals := congrArg Outcome.signals h
  rw [← hsignals, reports_map_demote, errorsOf_map_demote]

/-! ## The extension gate -/

namespace Gate

open Outcome

section

variable {o : Options} {r : Registry} {channel : Channel} {loc : Location} {feature : String}

/-- `tolerate` gives off no more than warnings. -/
theorem demote_tolerate (id : ExtensionId) :
    (tolerate o r channel loc feature id).demote = tolerate o r channel loc feature id := by
  have hwarn (reason extra : String) :
      (report ⟨.warning, channel, loc, reason, feature, extra⟩).demote =
        report ⟨.warning, channel, loc, reason, feature, extra⟩ := rfl
  simp only [tolerate, demote_bind, demote_ite, demote_liftM, demote_pure, hwarn]

end

end Gate

/-! ## Gates and checks -/

namespace Check

variable {o : Options} {r : Registry} {loc : Location}

/-- The errors of gates run in turn, each with its `leniency`. -/
def raisedInTurn (o : Options) (r : Registry) (loc : Location) :
    List (Check ExtensionId × String) → List (Leniency × Diagnostic)
  | [] => []
  | (k, feature) :: rest =>
    let outcome := k.run o r loc feature
    allAs (k.leniency r) (errorsOf (reports outcome.signals)) ++
      match outcome.result with
      | .ok () => raisedInTurn o r loc rest
      | .error _ => []

/-- The errors of a check, each with the `leniency` of the gate that reports it. -/
def raised (o : Options) (r : Registry) (loc : Location) (feature : String)
    (k : Check ExtensionId) : List (Leniency × Diagnostic) :=
  raisedInTurn o r loc (k.parts feature)

end Check

end ShaderCompat
