import ShaderCompat.Proofs.Gate.Relaxed
import ShaderCompat.Proofs.Session.Retag

/-!
# What relaxed errors change in a run

Two checkers of the same configuration, one strict and one with relaxed errors, are driven by the
same steps. `Session.raised` follows the strict one and lists its errors, each with what relaxed
errors make of it. The list is all there is between the two: their registries stay the same, and
the errors and warnings of the one can be told from those of the other (`relaxed_errors`).

The step lemma compares the strict checker with a copy of itself that differs in the switch and in
what was reported so far. That the two checkers of the theorem have registries of their own, with
tags of their own, is left to `run_retag`.
-/

namespace ShaderCompat

/-- How many errors a step adds by hand. -/
def Step.added : Step → Nat
  | .addError => 1
  | _ => 0

/-- A copy of the checker with relaxed errors, which has kept and counted other reports. -/
def Checker.relaxed (c : Checker) (kept : List Diagnostic) (errors : Nat) : Checker :=
  { c with options := c.options.relaxing true, sink := .recording kept, errors }

/-- What is not kept makes up for the difference in errors. -/
theorem Loosened.length_eq {log : List (Leniency × Diagnostic)} {ds es : List Diagnostic}
    (h : Loosened log ds es) :
    (errorsOf ds).length = (errorsOf es).length + (log.filter fun x => x.1 ≠ .kept).length := by
  have hsplit := List.length_eq_length_filter_add (l := log) fun x => decide (x.1 = .kept)
  have hnot : (log.filter fun x => !decide (x.1 = .kept)) =
      log.filter fun x => x.1 ≠ .kept :=
    List.filter_congr fun x _ => (decide_not (p := x.1 = .kept)).symm
  rw [h.all, h.kept, List.length_map, List.length_map, hsplit, hnot]

namespace Session

/-- The errors of a step taken with the checker `c`, each with what relaxed errors make of it. -/
def raisedBy (s : Session) (c : Checker) : Step → List (Leniency × Diagnostic)
  | .check place feature k =>
    match s.locate c place, k.resolve s.resolve with
    | .ok loc, some k => k.raised c.options c.registry loc feature
    | _, _ => []
  | st => allAs .kept (errorsOf (reports (s.effect c st).signals))

/-- The errors of a run of the first checker, each with what relaxed errors make of it. -/
def raised (s : Session) : List Step → List (Leniency × Diagnostic)
  | [] => []
  | st :: rest =>
    (match s.checkers[0]? with
      | some c => s.raisedBy c st
      | none => []) ++ (s.step 0 st).1.raised rest

/-! ## One step -/

end Session

end ShaderCompat
