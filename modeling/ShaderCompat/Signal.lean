import ShaderCompat.Event

/-!
# Signals and outcomes

A check gives off signals: entries for the log, and reports for the host. `Outcome` is a computation
that gives off signals in order and may stop at a refused identity, in which case the signals given
off so far remain. What becomes of a report (whether it is counted, dropped or delivered) is not
decided here.
-/

namespace ShaderCompat

/-- Something a check lets the world know: an entry of the log, or a report. -/
inductive Signal where
  | log (event : Event)
  | report (d : Diagnostic)
deriving DecidableEq, Repr

/-- The `signals` of a computation, in order, and how it ends. -/
structure Outcome (α : Type) where
  signals : List Signal
  result : Except Refusal α

namespace Outcome

/-- One computation after another; the second is not begun if the first is refused, and then what
the first gave off is all. -/
def bind {α β : Type} (x : Outcome α) (f : α → Outcome β) : Outcome β :=
  match x.result with
  | .ok a => ⟨x.signals ++ (f a).signals, (f a).result⟩
  | .error e => ⟨x.signals, .error e⟩

instance : Monad Outcome where
  pure a := ⟨[], .ok a⟩
  bind := bind

/-- A lookup gives off nothing, so a `do` block may look up and report in turn. -/
instance : MonadLift (Except Refusal) Outcome := ⟨fun x => ⟨[], x⟩⟩

/-- Gives off one signal, and goes on. -/
def emit (s : Signal) : Outcome Unit := ⟨[s], .ok ()⟩

/-- Writes an entry into the log, whatever sink there is. -/
def log (event : Event) : Outcome Unit := emit (.log event)

/-- Reports a diagnostic; whether it is delivered is for `Checker.delivers`. -/
def report (d : Diagnostic) : Outcome Unit := emit (.report d)

@[simp] theorem signals_pure {α : Type} (a : α) : (pure a : Outcome α).signals = [] := rfl

@[simp] theorem result_pure {α : Type} (a : α) : (pure a : Outcome α).result = .ok a := rfl

/-- The `>>=` of a `do` block is `Outcome.bind`. -/
theorem bind_def {α β : Type} (x : Outcome α) (f : α → Outcome β) : x >>= f = x.bind f := rfl

/-- Outcomes compose as computations do: `bind` is associative, and `pure` gives off nothing. -/
instance : LawfulMonad Outcome := LawfulMonad.mk' Outcome
  (by
    intro α x
    obtain ⟨s, r⟩ := x
    cases r <;> simp [Functor.map, bind])
  (by intro α β a f; simp [bind_def, bind, pure])
  (by
    intro α β γ x f g
    obtain ⟨s, r⟩ := x
    cases r with
    | error e => simp [bind_def, bind]
    | ok a =>
      cases h : (f a).result <;> simp [bind_def, bind, h])

end Outcome

end ShaderCompat
