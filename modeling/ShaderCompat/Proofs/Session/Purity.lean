import Mathlib.Algebra.GroupWithZero.Nat
import ShaderCompat.Proofs.Session.Refusal
import ShaderCompat.Proofs.Session.View

/-!
# Looking changes nothing

A check reports and a question asks, and neither changes what there is to see: all that is left of
them are the reports that a checker has delivered, behind those it had, and the errors among them in
its counter. What is delivered and what is answered depends on neither. So each of a list of looks
does what it would do alone, in whatever order and however often they are taken
(`Session.looks_as_alone`).
-/

namespace ShaderCompat

/-- The step is a check or a question, to a checker or on behalf of one: it changes nothing. -/
def Step.Looks : Step → Prop
  | .check .. | .ask _ | .preamble | .cursor | .location => True
  | _ => False

/-- A look does not ask for what is kept for the host. -/
theorem Step.Looks.not_inspects {st : Step} (h : st.Looks) : ¬st.Inspects := by
  cases st <;> first | exact id | exact absurd h id

namespace Session

/-! ## One look -/

section

variable {s : Session} {i : Nat} {c : Checker} {st : Step}

/-- A look neither makes nor moves a cursor, and saves no identity. -/
theorem share_of_looks (h : st.Looks) : s.share c st = s := by
  cases st <;> first | rfl | exact absurd h id

/-- A look changes nothing beside the registry. -/
theorem adjust_of_looks (h : st.Looks) : s.adjust c st = c := by
  cases st <;> first | rfl | exact absurd h id

/-- And it leaves the registry as it is. -/
theorem registry_effect_of_looks (h : st.Looks) : (s.effect c st).registry = c.registry := by
  cases st with
  | check place feature k => exact s.registry_effect_check c place feature k
  | _ => first | rfl | exact absurd h id

/-- A look leaves no more than a `credit` for what it has delivered. -/
theorem step_of_looks (hc : s.checkers[i]? = some c) (h : st.Looks) :
    (s.step i st).1 = s.withChecker i (c.credit (s.step i st).2.emission.delivered) := by
  have habsorb : (c.absorb (s.effect c st)).1 =
      c.credit (c.absorb (s.effect c st)).2.delivered := by
    have hsame : ({ c with registry := (s.effect c st).registry } : Checker) = c := by
      rw [registry_effect_of_looks h]
    rw [Checker.absorb, hsame, Checker.receiveAll_eq_credit]
  rw [step_emission hc, step_eq_stepWith hc, (stepWith_eq hc st).1, share_of_looks h, next,
    adjust_of_looks h, habsorb]

/-- What is delivered of a look depends on what it sees, in the sense of `SameView`, and on the
options. -/
theorem delivered_congr {s' : Session} {i' : Nat} {c' : Checker} (hc : s.checkers[i]? = some c)
    (hc' : s'.checkers[i']? = some c') (hview : SameView s c s' c') (ho : c'.options = c.options) :
    (s'.step i' st).2.emission.delivered = (s.step i st).2.emission.delivered := by
  have hst : st.SeesSame c.options c'.options :=
    Options.SameRules.seesSame (ho ▸ Options.SameRules.refl c.options) st
  have hdelivers : c'.delivers = c.delivers := by
    funext d
    rw [Checker.delivers, Checker.delivers, ho]
  rw [step_emission hc, step_emission hc', effect_congr hview hst, Checker.absorb, Checker.absorb,
    Checker.receiveAll_delivered, Checker.receiveAll_delivered]
  exact congrArg (fun p => (reports (s.effect c st).signals).filter p) hdelivers

/-- What a look is answered depends on no more. -/
theorem answer_of_looks {s' : Session} {i' : Nat} {c' : Checker} (hc : s.checkers[i]? = some c)
    (hc' : s'.checkers[i']? = some c') (hview : SameView s c s' c') (ho : c'.options = c.options)
    (h : st.Looks) : (s'.step i' st).2.answer = (s.step i st).2.answer := by
  have hst : st.SeesSame c.options c'.options :=
    Options.SameRules.seesSame (ho ▸ Options.SameRules.refl c.options) st
  rw [step_eq_stepWith hc, step_eq_stepWith hc', answer_congr hview hst h.not_inspects i i']

/-- With a sink of the same kind, a look writes the same into the log as well. -/
theorem reply_congr {s' : Session} {i' : Nat} {c' : Checker} (hc : s.checkers[i]? = some c)
    (hc' : s'.checkers[i']? = some c') (hview : SameView s c s' c') (ho : c'.options = c.options)
    (hsink : c'.sink.clear = c.sink.clear) (h : st.Looks) :
    (s'.step i' st).2 = (s.step i st).2 := by
  have hst : st.SeesSame c.options c'.options :=
    Options.SameRules.seesSame (ho ▸ Options.SameRules.refl c.options) st
  have hemission : (s'.step i' st).2.emission = (s.step i st).2.emission := by
    rw [step_emission hc, step_emission hc', effect_congr hview hst]
    exact Checker.absorb_emission_congr (congrArg Options.messages ho) hsink _
  exact congrArg₂ Reply.mk hemission (answer_of_looks hc hc' hview ho h)

/-- The place and the references of the step stand for something, and the registry serves the
identities. -/
def Accepts (s : Session) (c : Checker) : Step → Prop
  | .check place _ k => ∃ loc k', s.locate c place = .ok loc ∧ k.resolve s.resolve = some k' ∧
      ∀ id ∈ k'.ids, c.registry.refusal? id = none
  | .ask q => ∃ q', q.resolve s.resolve = some q' ∧ ∀ id ∈ q'.ids, c.registry.refusal? id = none
  | .location => ∃ loc, s.currentLocation c = .ok loc
  | _ => True

/-- A look that the session `Accepts` is carried out. -/
theorem answer_of_accepts (hc : s.checkers[i]? = some c) (hr : c.registry.Sound) (h : st.Looks)
    (haccepts : s.Accepts c st) : ∃ a, (s.step i st).2.answer = .ok a := by
  rw [step_eq_stepWith hc]
  cases st with
  | check place feature k =>
    obtain ⟨loc, k', hloc, hk, hids⟩ := haccepts
    simp only [stepWith, atPlace, hloc, hk]
    show ∃ a, ending (k'.run c.options c.registry loc feature).result = .ok a
    cases hrun : (k'.run c.options c.registry loc feature).result with
    | ok _ => exact ⟨.done, rfl⟩
    | error e =>
      -- an error would be the refusal of an identity, and all of them are served
      have hrefused := (Check.run_eq_error_iff hr).mp hrun
      rw [Check.refusal?_of_served hids] at hrefused
      exact absurd hrefused (Option.some_ne_none e).symm
  | ask q =>
    obtain ⟨q', hq, hids⟩ := haccepts
    simp only [stepWith, hq]
    cases hanswer : q'.answer c.registry with
    | ok f => exact ⟨.found f, rfl⟩
    | error e =>
      have hrefused := Query.answer_eq_error_iff.mp hanswer
      rw [Query.refusal?_of_served hids] at hrefused
      exact absurd hrefused (Option.some_ne_none e).symm
  | preamble => exact ⟨_, rfl⟩
  | cursor => exact ⟨_, rfl⟩
  | location =>
    obtain ⟨loc, hloc⟩ := haccepts
    simp only [stepWith, hloc]
    exact ⟨.location loc, rfl⟩
  | _ => exact absurd h id

end

/-! ## Many looks -/

/-- The session with some reports credited to the checker at a place. -/
def credit (s : Session) (i : Nat) (ds : List Diagnostic) : Session :=
  { s with checkers := s.checkers.modify i (Checker.credit ds) }

/-- What the checker that a call names delivers if the call is made alone. -/
def said (s : Session) (call : Nat × Step) : List Diagnostic :=
  (s.step call.1 call.2).2.emission.delivered

/-- What the checker at a place delivers of a list of calls, if each is made alone. -/
def saidBy (s : Session) (i : Nat) (calls : List (Nat × Step)) : List Diagnostic :=
  (calls.filter fun call => call.1 = i).flatMap s.said

section

variable {s : Session} {calls : List (Nat × Step)}

/-- A `credit` reaches the checker at its place only. -/
theorem getElem?_checkers_credit (s : Session) (i j : Nat) (ds : List Diagnostic) :
    (s.credit j ds).checkers[i]? =
      (s.checkers[i]?).map fun c => if j = i then c.credit ds else c := by
  rw [credit, List.getElem?_modify]
  split <;> rfl

/-- A look with any checker leaves the session as it was but for a `credit`; with none it leaves it
as it was. -/
theorem step_eq_credit (s : Session) (i : Nat) {st : Step} (h : st.Looks) :
    (s.step i st).1 = s.credit i (s.said (i, st)) := by
  cases hc : s.checkers[i]? with
  | none =>
    have hmodify : s.checkers.modify i (Checker.credit (s.said (i, st))) = s.checkers :=
      List.modify_eq_self (List.getElem?_eq_none_iff.mp hc)
    rw [credit, hmodify, step, hc]
  | some c =>
    rw [step_of_looks hc h, withChecker, credit, List.modify_eq_set_getElem?, hc]
    rfl

/-- No look sees a `credit`, so its reply is the same after one. -/
theorem step_credit (s : Session) (j : Nat) (ds : List Diagnostic) (i : Nat) {st : Step}
    (h : st.Looks) : ((s.credit j ds).step i st).2 = (s.step i st).2 := by
  have hcredit := s.getElem?_checkers_credit i j ds
  cases hc : s.checkers[i]? with
  | none =>
    rw [hc] at hcredit
    rw [step, step, hc, hcredit]
    rfl
  | some c =>
    rw [hc] at hcredit
    refine reply_congr hc hcredit ?_ ?_ ?_ h
    · constructor <;> first | rfl | split <;> rfl
    · split <;> rfl
    · split
      · exact Sink.clear_acceptAll ds c.sink
      · rfl

/-- What a look delivers is the same after a `credit`. -/
theorem said_credit (s : Session) (j : Nat) (ds : List Diagnostic) {call : Nat × Step}
    (h : call.2.Looks) : (s.credit j ds).said call = s.said call := by
  rw [said, said, step_credit s j ds call.1 h]

/-- The first of the calls adds to what a checker says if it is a call of that checker. -/
theorem saidBy_cons (s : Session) (i : Nat) (call : Nat × Step) :
    s.saidBy i (call :: calls) = (if call.1 = i then s.said call else []) ++ s.saidBy i calls := by
  rw [saidBy, saidBy, List.filter_cons]
  by_cases hi : call.1 = i
  · rw [if_pos (decide_eq_true hi), if_pos hi, List.flatMap_cons]
  · rw [if_neg (by rw [decide_eq_false hi]; exact Bool.false_ne_true), if_neg hi, List.nil_append]

/-- What a list of looks delivers is the same after a `credit`. -/
theorem saidBy_credit (s : Session) (i j : Nat) (ds : List Diagnostic)
    (h : ∀ call ∈ calls, call.2.Looks) : (s.credit j ds).saidBy i calls = s.saidBy i calls := by
  refine List.flatMap_congr fun call hcall => ?_
  exact said_credit s j ds (h call (List.mem_of_mem_filter hcall))

/-- A run of looks: each has the reply it has alone, and each checker is left with a `credit` for
what it has said. -/
theorem run_looks (h : ∀ call ∈ calls, call.2.Looks) (s : Session) :
    (s.run calls).2 = calls.map (fun call => (s.step call.1 call.2).2) ∧
      (s.run calls).1.cursors = s.cursors ∧ (s.run calls).1.saved = s.saved ∧
      ∀ i, (s.run calls).1.checkers[i]? =
        (s.checkers[i]?).map (Checker.credit (s.saidBy i calls)) := by
  -- the session varies: the rest runs in one that has the credit of the first look
  induction calls generalizing s with
  | nil => exact ⟨rfl, rfl, rfl, fun i => Option.map_id'.symm⟩
  | cons call rest ih =>
    obtain ⟨j, st⟩ := call
    obtain ⟨hst, hrest⟩ := List.forall_mem_cons.mp h
    obtain ⟨hreplies, hcursors, hsaved, hcheckers⟩ := ih hrest (s.credit j (s.said (j, st)))
    -- the rest is taken after a credit, which none of its looks sees
    rw [run_cons, step_eq_credit s j hst, List.map_cons]
    refine ⟨?_, hcursors, hsaved, fun i => ?_⟩
    · rw [hreplies]
      refine congrArg (List.cons _) (List.map_congr_left fun call hcall => ?_)
      exact step_credit s j _ call.1 (hrest call hcall)
    · rw [hcheckers, getElem?_checkers_credit, saidBy_credit s i j _ hrest, saidBy_cons,
        Option.map_map]
      refine congrArg (fun f => Option.map f s.checkers[i]?) (funext fun c => ?_)
      show Checker.credit _ (if j = i then _ else _) = _
      split
      · rw [Checker.credit_credit]
      · rw [List.nil_append]

/-- The errors of `saidBy` are those of each call of the checker, added up. -/
theorem length_errorsOf_saidBy (s : Session) (i : Nat) (calls : List (Nat × Step)) :
    (errorsOf (s.saidBy i calls)).length =
      ((calls.filter fun call => call.1 = i).map fun call =>
        (errorsOf (s.said call)).length).sum := by
  rw [errorsOf, saidBy, List.filter_flatMap, List.length_flatMap]
  rfl

/-- In a session that was started in any way, a look at a checker leaves all as it is, but that the
reports it has delivered are added to the sink of the checker, and the errors among them to its
counter. If it is accepted it is carried out. What it delivers and what it is answered is the same
wherever what it sees is the same: it depends on no counter, no sink and nothing that was done
before. In a list of looks each therefore has the reply that it has alone, whatever else is in the
list and in what order, and each counter grows by the sum of the errors. -/
theorem looks_as_alone {sink : Sink} {configurations : List Options} {past : List (Nat × Step)}
    (hs : ((start sink configurations).run past).1 = s) :
    (∀ (i : Nat) (c : Checker) (st : Step), s.checkers[i]? = some c → st.Looks →
      (s.step i st).1 = s.withChecker i
        { c with
          sink := c.sink.acceptAll (s.said (i, st))
          errors := c.errors + (errorsOf (s.said (i, st))).length } ∧
      (s.Accepts c st → ∃ a, (s.step i st).2.answer = .ok a) ∧
      ∀ (s' : Session) (i' : Nat) (c' : Checker), s'.checkers[i']? = some c' →
        SameView s c s' c' → c'.options = c.options →
          s'.said (i', st) = s.said (i, st) ∧ (s'.step i' st).2.answer = (s.step i st).2.answer) ∧
    ∀ calls : List (Nat × Step), (∀ call ∈ calls, call.2.Looks) →
      (s.run calls).2 = calls.map (fun call => (s.step call.1 call.2).2) ∧
      (s.run calls).1.cursors = s.cursors ∧ (s.run calls).1.saved = s.saved ∧
      ∀ (i : Nat) (c : Checker), s.checkers[i]? = some c →
        ∃ c', (s.run calls).1.checkers[i]? = some c' ∧
          c'.options = c.options ∧ c'.registry = c.registry ∧ c'.cursor = c.cursor ∧
          (∀ kept, c.sink = .recording kept →
            c'.sink = .recording (kept ++ s.saidBy i calls)) ∧
          c'.errors = c.errors + ((calls.filter fun call => call.1 = i).map fun call =>
            (errorsOf (s.said call)).length).sum := by
  constructor
  · intro i c st hc hst
    have hr : c.registry.Sound := Checker.Reachable.sound ⟨sink, configurations, past, i, hs ▸ hc⟩
    refine ⟨step_of_looks hc hst, answer_of_accepts hc hr hst, ?_⟩
    intro s' i' c' hc' hview ho
    exact ⟨delivered_congr hc hc' hview ho, answer_of_looks hc hc' hview ho hst⟩
  · intro calls hcalls
    obtain ⟨hreplies, hcursors, hsaved, hcheckers⟩ := run_looks hcalls s
    refine ⟨hreplies, hcursors, hsaved, ?_⟩
    intro i c hc
    refine ⟨c.credit (s.saidBy i calls), ?_, rfl, rfl, rfl, ?_, ?_⟩
    · rw [hcheckers, hc]
      rfl
    · intro kept hkept
      rw [Checker.credit, hkept, Sink.acceptAll_recording]
    · rw [← length_errorsOf_saidBy]
      rfl

/-- An operator that needs a later version is refused twice, with the use of an extension that is to
warn, and a question, between. -/
theorem looks_as_alone_repeated :
    ∃ s c c', ((start (.recording []) [{}]).run
        [(0, .directive 1 "GL_EXT_frag_depth" "warn")]).1 = s ∧ s.checkers[0]? = some c ∧
      (∃ a, (s.step 0 (.check (.at (.atLine 2)) "gl_FragDepth"
        (.version (.only .none) 0 [.known .extFragDepth]))).2.answer = .ok a) ∧
      (s.run [(0, .check (.at (.atLine 3)) "%" .fullInteger),
        (0, .check (.at (.atLine 2)) "gl_FragDepth"
          (.version (.only .none) 0 [.known .extFragDepth])),
        (0, .ask (.behaviorOf "GL_EXT_frag_depth")),
        (0, .check (.at (.atLine 3)) "%" .fullInteger)]).1.checkers[0]? = some c' ∧
      c'.registry = c.registry ∧ c'.errors = c.errors + 2 := by
  obtain ⟨s, hs⟩ : ∃ s, ((start (.recording []) [{}]).run
      [(0, .directive 1 "GL_EXT_frag_depth" "warn")]).1 = s := ⟨_, rfl⟩
  obtain ⟨hone, hmany⟩ := looks_as_alone hs
  obtain ⟨c, hc⟩ : ∃ c, s.checkers[0]? = some c := by
    subst hs
    exact ⟨_, rfl⟩
  have haccepts : s.Accepts c (.check (.at (.atLine 2)) "gl_FragDepth"
      (.version (.only .none) 0 [.known .extFragDepth])) := by
    refine ⟨_, _, rfl, rfl, ?_⟩
    intro id hid
    obtain rfl := List.mem_singleton.mp hid
    exact (Checker.Reachable.sound ⟨_, _, _, 0, hs ▸ hc⟩).refusal?_id .extFragDepth
  obtain ⟨-, hanswer, -⟩ := hone 0 c (.check (.at (.atLine 2)) "gl_FragDepth"
    (.version (.only .none) 0 [.known .extFragDepth])) hc trivial
  obtain ⟨-, -, -, hcheckers⟩ := hmany
    [(0, .check (.at (.atLine 3)) "%" .fullInteger),
      (0, .check (.at (.atLine 2)) "gl_FragDepth"
        (.version (.only .none) 0 [.known .extFragDepth])),
      (0, .ask (.behaviorOf "GL_EXT_frag_depth")),
      (0, .check (.at (.atLine 3)) "%" .fullInteger)] (by simp [Step.Looks])
  obtain ⟨c', hc', -, hregistry, -, -, herrors⟩ := hcheckers 0 c hc
  refine ⟨s, c, c', hs, hc, hanswer haccepts, hc', hregistry, herrors.trans ?_⟩
  subst hs
  rw [Nat.add_left_cancel_iff]
  decide +kernel

end

end Session

end ShaderCompat
