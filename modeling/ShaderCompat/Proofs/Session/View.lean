import ShaderCompat.Proofs.Gate.Congruence
import ShaderCompat.Proofs.Session.Effect

/-!
# What a step sees

Beside its checker's registry and configuration a step sees the cursors and the saved identities of
the session. Of the configuration it sees no more than its check does, or the preamble that it asks
for. So a second checker, in a session of its own, does the same to its registry
(`Session.effect_congr`) and gives the same answer (`Session.answer_congr`) if what is seen is the
same there; the sinks, the counters and the other checkers may differ.
-/

namespace ShaderCompat

/-- Of the two configurations the step sees only what they have in common. -/
def Step.SeesSame (o o' : Options) : Step → Prop
  | .check _ feature k => ∀ (f : ExtensionRef → Option ExtensionId) (k' : Check ExtensionId)
      (r : Registry) (loc : Location), k.resolve f = some k' →
        k'.run o' r loc feature = k'.run o r loc feature
  | .preamble => ShaderCompat.preamble o' = ShaderCompat.preamble o
  | _ => True

/-- The step asks for the state that is kept for the host: the configuration, the counter, the sink,
or the text of it all. -/
def Step.Inspects : Step → Prop
  | .configuration | .errorCount | .text | .sink => True
  | _ => False

/-- Options with the same rules have the same `preamble`: it reads the version, the profile and the
target. -/
theorem Options.SameRules.preamble_eq {o o' : Options} (h : o.SameRules o') :
    preamble o' = preamble o := by
  have hcovers (scope : Scope) : scope.covers o' = scope.covers o := by
    cases scope <;> simp only [Scope.covers, h.profile, h.version]
  have hdefinitions : Preamble.definitions o' = Preamble.definitions o := by
    simp only [Preamble.definitions, Preamble.announced, hcovers, h.profile, h.version, h.target]
  rw [preamble, preamble, hdefinitions]

/-- No step can tell options with the same rules apart. -/
theorem Options.SameRules.seesSame {o o' : Options} (h : o.SameRules o') (st : Step) :
    st.SeesSame o o' := by
  cases st with
  | check place feature k =>
    intro f k' r loc _
    exact k'.run_of_sameRules h r loc feature
  | preamble => exact h.preamble_eq
  | _ => trivial

namespace Session

/-- A second checker, in a second session, has the same before it: the same registry, saved
identities and cursors, and it reads from the same cursor. -/
structure SameView (s : Session) (c : Checker) (s' : Session) (c' : Checker) : Prop where
  registry : c'.registry = c.registry
  cursor : c'.cursor = c.cursor
  cursors : s'.cursors = s.cursors
  saved : s'.saved = s.saved

section

variable {s s' : Session} {c c' : Checker}

/-- The same cursor is `attached`. -/
theorem SameView.attached (h : SameView s c s' c') : s'.attached c' = s.attached c := by
  rw [Session.attached, Session.attached, h.cursor, h.cursors]

/-- That cursor stands at the same place. -/
theorem SameView.currentLocation (h : SameView s c s' c') :
    s'.currentLocation c' = s.currentLocation c := by
  rw [Session.currentLocation, Session.currentLocation, h.attached]

/-- A `Place` is located at the same location, or refused alike. -/
theorem SameView.locate (h : SameView s c s' c') (place : Place) :
    s'.locate c' place = s.locate c place := by
  cases place with
  | «at» loc => rfl
  | current => exact h.currentLocation

/-- A directive on `line` is placed alike. -/
theorem SameView.directiveLocation (h : SameView s c s' c') (line : Int32) :
    s'.directiveLocation c' line = s.directiveLocation c line := by
  rw [Session.directiveLocation, Session.directiveLocation, h.attached]

/-- A reference is resolved to the same identity, if to any. -/
theorem SameView.resolve (h : SameView s c s' c') : s'.resolve = s.resolve := by
  funext ref
  cases ref with
  | saved label => exact congrArg (List.lookup label) h.saved
  | _ => rfl

/-- A label stands for the same cursor. -/
theorem SameView.cursor? (h : SameView s c s' c') : s'.cursor? = s.cursor? := by
  funext label
  rw [Session.cursor?, Session.cursor?, h.cursors]

/-- Where a step sees the same, its `effect` is the same. -/
theorem effect_congr (h : SameView s c s' c') {st : Step}
    (hst : st.SeesSame c.options c'.options) : s'.effect c' st = s.effect c st := by
  cases st with
  | check place feature k =>
    simp only [effect, h.locate, h.resolve, h.registry]
    cases s.locate c place with
    | error e => rfl
    | ok loc =>
      cases hk : k.resolve s.resolve with
      | none => rfl
      | some k' => simp only [hst s.resolve k' c.registry loc hk]
  | report severity channel place reason token extra =>
    simp only [effect, h.locate, h.registry]
  | declare place ref b => simp only [effect, h.locate, h.resolve, h.registry]
  | directive line name keyword => simp only [effect, h.directiveLocation, h.registry]
  | intern name label => simp only [effect, h.registry]
  | beginUnit => simp only [effect, h.registry]
  | _ => exact congrArg Update.idle h.registry

/-- Where a step sees the same it is answered the same, unless it is one of those that `Inspects`
names. -/
theorem answer_congr (h : SameView s c s' c') {st : Step}
    (hst : st.SeesSame c.options c'.options) (hhost : ¬st.Inspects) (i i' : Nat) :
    (s'.stepWith i' c' st).2.answer = (s.stepWith i c st).2.answer := by
  cases st with
  | check place feature k =>
    simp only [stepWith, atPlace, h.locate, h.resolve]
    cases s.locate c place with
    | error e => rfl
    | ok loc =>
      cases hk : k.resolve s.resolve with
      | none => rfl
      | some k' =>
        show ending (k'.run c'.options c'.registry loc feature).result =
          ending (k'.run c.options c.registry loc feature).result
        rw [h.registry, hst s.resolve k' c.registry loc hk]
  | report severity channel place reason token extra =>
    simp only [stepWith, atPlace, h.locate]
    cases s.locate c place <;> rfl
  | directive line name keyword =>
    show ending (Directive.apply (s'.directiveLocation c' line) name keyword c'.registry).result =
      ending (Directive.apply (s.directiveLocation c line) name keyword c.registry).result
    rw [h.directiveLocation, h.registry]
  | declare place ref b =>
    simp only [stepWith, atPlace, h.locate, h.resolve]
    cases s.locate c place with
    | error e => rfl
    | ok loc =>
      cases s.resolve ref with
      | none => rfl
      | some id =>
        show ending (Directive.declare loc id b c'.registry).result =
          ending (Directive.declare loc id b c.registry).result
        rw [h.registry]
  | intern name label =>
    show Except.ok (Answer.identity (c'.registry.intern name).2) =
      Except.ok (Answer.identity (c.registry.intern name).2)
    rw [h.registry]
  | ask q =>
    simp only [stepWith, h.resolve, h.registry]
    cases q.resolve s.resolve <;> rfl
  | preamble => exact congrArg (fun text => (Except.ok (.text text) : Except StepError Answer)) hst
  | attach label =>
    cases label with
    | none =>
      show Except.ok (Answer.label ((s'.attached c').map Cursor.label)) = _
      rw [h.attached]
      rfl
    | some label =>
      simp only [stepWith, h.attached, h.cursor?]
      cases s.cursor? label <;> rfl
  | cursor => simp only [stepWith, h.attached]
  | location => simp only [stepWith, h.currentLocation]
  | move m =>
    simp only [stepWith, h.cursor]
    cases c.cursor <;> rfl
  -- the counter and the sink are not part of what `SameView` compares
  | configuration | errorCount | text | sink => exact absurd trivial hhost
  | addError | beginUnit | edit | newCursor | clearSink => rfl

end

end Session

end ShaderCompat
