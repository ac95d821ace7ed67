import ShaderCompat.Proofs.Preamble
import ShaderCompat.Proofs.Session.Effect

/-!
# The preamble along a run

The text of a preamble reads back as a list of macros that depends on the profile, the version and
the two dialects alone. Checks, directives and reports change none of these, and neither do edits of
anything else, so the preamble of a checker stays the same through a run (`Session.preamble_exact`).
-/

namespace ShaderCompat

/-- Two configurations have the profile, the version and the dialects in common. -/
structure Options.SameDialect (o o' : Options) : Prop where
  profile : o'.profile = o.profile
  version : o'.version = o.version
  vulkanGlsl : o'.target.vulkanGlsl = o.target.vulkanGlsl
  openGl : o'.target.openGl = o.target.openGl

/-- A preamble depends on no more than `SameDialect` compares. -/
theorem Options.SameDialect.preamble_eq {o o' : Options} (h : o.SameDialect o') :
    preamble o' = preamble o := by
  have hmacros : Preamble.macrosOf o' = Preamble.macrosOf o := by
    rw [Preamble.macrosOf, Preamble.macrosOf, h.profile, h.version, h.vulkanGlsl, h.openGl]
  rw [Preamble.preamble_eq_join, Preamble.preamble_eq_join, hmacros]

/-- The step leaves the profile, the version and the dialects as a configuration has them. All else
may be done and edited. -/
def Step.KeepsDialect (o : Options) : Step → Prop
  | .edit (.profile _) | .edit (.version _) => False
  | .edit (.target t) => t.vulkanGlsl = o.target.vulkanGlsl ∧ t.openGl = o.target.openGl
  | _ => True

namespace Session

/-- A step that `KeepsDialect` leaves what a preamble depends on as it is. -/
theorem sameDialect_next (s : Session) {o : Options} {c : Checker} {st : Step}
    (h : o.SameDialect c.options) (hst : st.KeepsDialect o) :
    o.SameDialect (s.next c st).options := by
  rw [next_options]
  cases st with
  | edit e =>
    cases e with
    | profile p => exact absurd hst id
    | version v => exact absurd hst id
    | target t => exact ⟨h.profile, h.version, hst.1, hst.2⟩
    | stage _ | forwardCompatible _ | messages _ =>
      exact ⟨h.profile, h.version, h.vulkanGlsl, h.openGl⟩
  | _ => exact h

/-- Under every configuration the preamble has a line for each of its macros and no other, so that
it reads back as these, and none is defined twice. With a later version all that was defined is
defined still, in the same order. In a run that leaves the profile, the version and the dialects of
a checker alone its preamble stays the same, and whenever it is asked for, this is the answer. -/
theorem preamble_exact :
    (∀ o : Options,
      preamble o = String.join ((Preamble.macrosOf o).map fun m =>
        "#define " ++ m.1 ++ " " ++ m.2 ++ "\n") ∧
      Preamble.read? (preamble o) = some (Preamble.macrosOf o) ∧
      ((Preamble.macrosOf o).map Prod.fst).Nodup) ∧
    (∀ (profile : Profile) (v v' vulkanGlsl openGl : Int32), v ≤ v' →
      (Preamble.macros profile v vulkanGlsl openGl).Sublist
        (Preamble.macros profile v' vulkanGlsl openGl)) ∧
    ∀ (s : Session) (i : Nat) (c : Checker) (steps : List (Nat × Step)),
      s.checkers[i]? = some c → (∀ st, (i, st) ∈ steps → st.KeepsDialect c.options) →
      (∃ c', (s.run steps).1.checkers[i]? = some c' ∧ preamble c'.options = preamble c.options) ∧
      ∀ n : Nat, steps[n]? = some (i, .preamble) → ∃ reply, (s.run steps).2[n]? = some reply ∧
        reply.answer = .ok (.text (preamble c.options)) := by
  refine ⟨fun o => ⟨Preamble.preamble_eq_join o, Preamble.read?_preamble o,
    Preamble.names_nodup _ _ _ _⟩, fun profile v v' vulkanGlsl openGl hv =>
      Preamble.macros_sublist profile vulkanGlsl openGl hv, fun s i c steps hc hsteps => ?_⟩
  have hrun (done : List (Nat × Step)) (hdone : ∀ st, (i, st) ∈ done → st.KeepsDialect c.options) :
      ∃ c', (s.run done).1.checkers[i]? = some c' ∧ c.options.SameDialect c'.options :=
    run_checker (P := fun c' => c.options.SameDialect c'.options)
      (fun s _ _ h hst => sameDialect_next s h hst) hc ⟨rfl, rfl, rfl, rfl⟩ hdone
  constructor
  · obtain ⟨c', hc', hsame⟩ := hrun steps hsteps
    exact ⟨c', hc', hsame.preamble_eq⟩
  · intro n hn
    obtain ⟨c', hc', hsame⟩ := hrun (steps.take n) fun st hst =>
      hsteps st (List.mem_of_mem_take hst)
    refine ⟨_, getElem?_replies s hn, ?_⟩
    rw [step_eq_stepWith hc']
    exact congrArg (fun text => (.ok (.text text) : Except StepError Answer)) hsame.preamble_eq

/-- Version 310 of the embedded profile announces device groups, which version 300 does not. A
directive and other edits do not change its preamble. -/
theorem preamble_exact_embedded :
    let steps : List (Nat × Step) :=
      [(0, .directive 1 "GL_EXT_device_group" "enable"), (0, .edit (.stage .compute)),
        (0, .edit (.target { spirv := 65536, vulkan := 100 })), (0, .preamble)]
    (Preamble.macros .es 300 0 0).Sublist (Preamble.macros .es 310 0 0) ∧
      ("GL_EXT_device_group", "1") ∉ Preamble.macros .es 300 0 0 ∧
      ("GL_EXT_device_group", "1") ∈ Preamble.macros .es 310 0 0 ∧
      ∃ reply, ((start .tracing [{ version := 310, profile := .es }]).run steps).2[3]? =
          some reply ∧
        reply.answer = .ok (.text (preamble { version := 310, profile := .es })) := by
  obtain ⟨-, hmono, hrun⟩ := preamble_exact
  refine ⟨hmono .es 300 310 0 0 (by decide), by decide +kernel, by decide +kernel, ?_⟩
  refine (hrun (start .tracing [{ version := 310, profile := .es }]) 0 _ _ rfl ?_).2 3 rfl
  simp [Step.KeepsDialect, Checker.start]

end Session

end ShaderCompat
