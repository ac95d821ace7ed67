import ShaderCompat.Proofs.Gate.Refusal
import ShaderCompat.Proofs.Session.Declarations

/-!
# What a refusal leaves behind

A checker that a session has come to may be asked about any identity at all, of the catalog, its
own, another checker's or none's. When it refuses, and why, `refusal?` says for questions, checks
and declarations; and a refusal changes nothing (`Checker.Reachable.refusals`). The one trace it can
leave are the warnings that a version gate gave before it came to the identity that is refused.
-/

namespace ShaderCompat

namespace Session

/-- A checker at the end of a run is one of those at its start, whose registry has evolved. -/
theorem evolves_of_run {s : Session} {steps : List (Nat × Step)} {i : Nat} {c' : Checker}
    (h : (s.run steps).1.checkers[i]? = some c') :
    ∃ c, s.checkers[i]? = some c ∧ c.registry.Evolves c'.registry := by
  induction steps generalizing s with
  | nil => exact ⟨c', h, Registry.Evolves.refl _⟩
  | cons p rest ih =>
    obtain ⟨j, st⟩ := p
    rw [run_cons] at h
    obtain ⟨c₁, hc₁, hevolves⟩ := ih h
    by_cases hji : j = i
    · subst hji
      cases hc : s.checkers[j]? with
      | none =>
        rw [step, hc] at hc₁
        exact absurd (hc.symm.trans hc₁) (Option.some_ne_none _).symm
      | some c =>
        rw [step_checker hc st] at hc₁
        obtain rfl : s.next c st = c₁ := Option.some.inj hc₁
        rw [next_registry] at hevolves
        exact ⟨c, rfl, (s.evolves_effect c st).trans hevolves⟩
    · rw [step_checker_of_ne s hji st] at hc₁
      exact ⟨c₁, hc₁, hevolves⟩

/-- The checker at `i` of a session that starts has the tag `i + 1`, the catalog having zero. -/
theorem getElem?_checkers_start (sink : Sink) (configurations : List Options) (i : Nat) :
    (start sink configurations).checkers[i]? =
      configurations[i]?.map fun o => Checker.start o (UInt32.ofNat (i + 1)) sink :=
  List.getElem?_mapIdx

/-- A registry of a session has evolved from a new one, whose tag is one more than its place. -/
theorem evolves_of_start {sink : Sink} {configurations : List Options} {steps : List (Nat × Step)}
    {i : Nat} {c : Checker} (h : ((start sink configurations).run steps).1.checkers[i]? = some c) :
    i < configurations.length ∧ (Registry.fresh (UInt32.ofNat (i + 1))).Evolves c.registry := by
  obtain ⟨c₀, hc₀, hevolves⟩ := evolves_of_run h
  rw [getElem?_checkers_start] at hc₀
  obtain ⟨o, ho, rfl⟩ := Option.map_eq_some_iff.mp hc₀
  exact ⟨(List.getElem?_eq_some_iff.mp ho).1, hevolves⟩

end Session

namespace Checker

/-- A session, started with any sink and configurations, comes to the checker. -/
def Reachable (c : Checker) : Prop :=
  ∃ (sink : Sink) (configurations : List Options) (steps : List (Nat × Step)) (i : Nat),
    ((Session.start sink configurations).run steps).1.checkers[i]? = some c

/-- The registry of a checker that a session has come to has evolved from a new one. -/
theorem Reachable.evolves {c : Checker} (h : c.Reachable) :
    ∃ tag, (Registry.fresh tag).Evolves c.registry := by
  obtain ⟨sink, configurations, steps, i, hc⟩ := h
  exact ⟨_, (Session.evolves_of_start hc).2⟩

/-- And so it is `Sound`. -/
theorem Reachable.sound {c : Checker} (h : c.Reachable) : c.registry.Sound := by
  obtain ⟨tag, hevolves⟩ := h.evolves
  exact hevolves.sound (Registry.sound_fresh tag)

section

variable {c : Checker} {loc : Location} {e : Refusal}

/-- A refused declaration leaves the checker as it is, and nothing else behind. -/
theorem update_of_refused {id : ExtensionId} (hr : c.registry.Sound)
    (h : c.registry.refusal? id = some e) (b : Behavior) :
    c.update (Directive.declare loc id b) = (c, {}, .error e) := by
  rw [update, hr.declare_of_refused loc b h]
  rfl

/-- A refused check leaves no more than what it had reported, as far as that is delivered. -/
theorem check_of_refused {feature : String} {k : Check ExtensionId} (hr : c.registry.Sound)
    (h : k.refusal? c.options c.registry = some e) {ds : List Diagnostic}
    (hds : ds = (k.reportsBefore c.registry loc feature).filter c.delivers) :
    c.check loc feature k =
      ({ c with sink := c.sink.acceptAll ds }, ⟨ds, ds.flatMap c.sink.events⟩, .error e) := by
  have hquiet : errorsOf (k.reportsBefore c.registry loc feature) = [] :=
    List.filter_eq_nil_iff.mpr fun d hd =>
      Bool.eq_false_iff.mp (Check.isError_of_mem_reportsBefore hd)
  have hchecker := c.receiveAll_checker ((k.reportsBefore c.registry loc feature).map .report)
  rw [reports_map_report, ← hds, hquiet] at hchecker
  have hdelivered :=
    c.receiveAll_delivered ((k.reportsBefore c.registry loc feature).map .report)
  rw [reports_map_report, ← hds] at hdelivered
  have hevents := c.receiveAll_map_report_events (k.reportsBefore c.registry loc feature)
  rw [← hds] at hevents
  have hresult : (k.run c.options c.registry loc feature).result = .error e :=
    (Check.run_eq_error_iff hr).mpr h
  rw [check, Check.signals_of_refused h, hresult]
  refine Prod.ext hchecker (Prod.ext ?_ rfl)
  exact congrArg₂ Emission.mk hdelivered hevents

end

/-- A checker that a session has come to refuses a question, a check or a declaration exactly if
`refusal?` tells why. A refused declaration leaves nothing behind. A refused check leaves the
checker as it was but for its sink, which was given the warnings on the extensions that a version
gate had read until then. -/
theorem Reachable.refusals {c : Checker} (hc : c.Reachable) :
    (∀ (q : Query ExtensionId) (e : Refusal),
      q.answer c.registry = .error e ↔ q.refusal? c.registry = some e) ∧
    (∀ (loc : Location) (id : ExtensionId) (b : Behavior) (e : Refusal),
      (c.update (Directive.declare loc id b)).2.2 = .error e ↔ c.registry.refusal? id = some e) ∧
    (∀ (loc : Location) (feature : String) (k : Check ExtensionId) (e : Refusal),
      (c.check loc feature k).2.2 = .error e ↔ k.refusal? c.options c.registry = some e) ∧
    (∀ (loc : Location) (id : ExtensionId) (b : Behavior) (e : Refusal),
      c.registry.refusal? id = some e →
        c.update (Directive.declare loc id b) = (c, {}, .error e)) ∧
    ∀ (loc : Location) (feature : String) (k : Check ExtensionId) (e : Refusal),
      k.refusal? c.options c.registry = some e → ∃ ds : List Diagnostic,
      ds = (k.reportsBefore c.registry loc feature).filter c.delivers ∧
      (∀ d ∈ ds, d.isError = false) ∧
      c.check loc feature k =
        ({ c with sink := c.sink.acceptAll ds }, ⟨ds, ds.flatMap c.sink.events⟩, .error e) := by
  have hr : c.registry.Sound := hc.sound
  refine ⟨fun q e => Query.answer_eq_error_iff, fun loc id b e => hr.declare_eq_error_iff loc b,
    fun loc feature k e => Check.run_eq_error_iff hr,
    fun loc id b e h => update_of_refused hr h b, fun loc feature k e h => ?_⟩
  refine ⟨_, rfl, fun d hd => ?_, check_of_refused hr h rfl⟩
  exact Check.isError_of_mem_reportsBefore (List.mem_of_mem_filter hd)

/-- A version gate reports the extension that is to warn, and then comes to a place past the end of
the names; that a foreign identity follows does not matter any more. -/
theorem Reachable.refusals_past_end :
    ∃ c d, Reachable c ∧
      d = ⟨.warning, .parse, .atLine 2, "extension warning", "gl_FragDepth",
        "extension GL_EXT_frag_depth is being used for gl_FragDepth"⟩ ∧
      c.check (.atLine 2) "gl_FragDepth"
          (.version (.only .none) 0 [Extension.extFragDepth.id, .inCatalog 200, ⟨5, 9⟩]) =
        ({ c with sink := .recording [d] }, ⟨[d], []⟩, .error .outOfRange) := by
  have hrun : ((Session.start (.recording []) [{}]).run
      [(0, .directive 1 "GL_EXT_frag_depth" "warn")]).1.checkers[0]? =
        some { Checker.start {} 1 (.recording []) with
          registry :=
            (Directive.apply (.atLine 1) "GL_EXT_frag_depth" "warn" (.fresh 1)).registry } := by
    decide +kernel
  have hc : Reachable _ := ⟨_, _, _, _, hrun⟩
  obtain ⟨-, -, -, -, hcheck⟩ := hc.refusals
  obtain ⟨ds, hds, -, hsame⟩ := hcheck (.atLine 2) "gl_FragDepth"
    (.version (.only .none) 0 [Extension.extFragDepth.id, .inCatalog 200, ⟨5, 9⟩]) .outOfRange
    (by decide +kernel)
  have hwarned : ds = [⟨.warning, .parse, .atLine 2, "extension warning", "gl_FragDepth",
      "extension GL_EXT_frag_depth is being used for gl_FragDepth"⟩] :=
    hds.trans (by decide +kernel)
  rw [hwarned] at hsame
  exact ⟨_, _, hc, rfl, hsame⟩

end Checker

end ShaderCompat
