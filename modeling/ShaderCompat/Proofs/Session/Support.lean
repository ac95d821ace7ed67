import ShaderCompat.Proofs.Gate.Entries
import ShaderCompat.Proofs.Session.Directive

/-!
# Partial support is reported once in a unit

That a partly supported extension was reported is not noted anywhere. A declaration reports it if
its behavior is missing, and whatever else a unit does, once an extension is declared it stays so.
Hence in a run that begins no other unit an extension is missing as long as no step has reached it
(`Declarations.behavior_next_iff`), and the first step that does reports it, whatever the step
declares it as (`Session.partly_supported_once`).
-/

namespace ShaderCompat

namespace Declarations

/-- The name that a step declares, with all that follows from it: that of a directive which is
accepted and is not about all extensions, or that of the extension a host declares. -/
def declared? (d : Declarations) : Step → Option String
  | .directive _ text keyword =>
    if keyword ∈ Directive.keywords ∧ text ≠ Directive.everyExtension then some text else none
  | .declare _ ref _ => d.nameOf? ref
  | _ => none

/-- A step declares an extension by its name or by one from which it follows. -/
def Reaches (d : Declarations) (x : String) (st : Step) : Prop :=
  ∃ text ∈ d.declared? st, Follows text x

instance (d : Declarations) (x : String) (st : Step) : Decidable (d.Reaches x st) :=
  inferInstanceAs (Decidable (∃ text ∈ d.declared? st, Follows text x))

/-- One of some steps, taken in order, reaches an extension. -/
def ReachedBy (d : Declarations) (x : String) : List Step → Prop
  | [] => False
  | st :: rest => d.Reaches x st ∨ (d.next st).ReachedBy x rest

instance decidableReachedBy (d : Declarations) (x : String) :
    (steps : List Step) → Decidable (d.ReachedBy x steps)
  | [] => inferInstanceAs (Decidable False)
  | st :: rest =>
    have := decidableReachedBy (d.next st) x rest
    inferInstanceAs (Decidable (d.Reaches x st ∨ (d.next st).ReachedBy x rest))

end Declarations

/-- A step goes on with a unit, and with delivering warnings: it begins no other unit, declares no
extension as missing, keeps warnings from being suppressed, and does not itself report in the words
that are kept for partly supported extensions. -/
def Step.ContinuesUnit : Step → Prop
  | .beginUnit => False
  | .report _ _ _ reason _ _ => reason ≠ "extension is only partially supported:"
  | .declare place ref b => b ≠ .missing ∧ (Step.declare place ref b).IsTold
  | .edit (.messages m) => m.suppressWarnings = false
  | _ => True

/-- A step that goes on with a unit is one of those that `Declarations` can follow. -/
theorem Step.ContinuesUnit.isTold {st : Step} (h : st.ContinuesUnit) : st.IsTold := by
  cases st with
  | declare place ref b => exact h.2
  | _ => trivial

/-! ## One step -/

namespace Declarations

variable {d : Declarations} {st : Step}

/-- A step that declares nothing reaches nothing. -/
theorem not_reaches_of_declared? {x : String} (h : d.declared? st = none) : ¬d.Reaches x st := by
  rintro ⟨text, htext, -⟩
  rw [h] at htext
  exact absurd htext (Option.some_ne_none text).symm

/-- A step reaches what follows from the name that it declares. -/
theorem reaches_iff_of_declared? {text x : String} (h : d.declared? st = some text) :
    d.Reaches x st ↔ Follows text x := by
  rw [Reaches, h]
  exact ⟨fun ⟨_, htext, hx⟩ => Option.some.inj htext ▸ hx, fun hx => ⟨text, rfl, hx⟩⟩

/-- A directive reaches what follows from its name, if its keyword is known and it is not about all
extensions. -/
theorem reaches_directive_iff {line : Int32} {text keyword x : String} :
    d.Reaches x (.directive line text keyword) ↔
      (keyword ∈ Directive.keywords ∧ text ≠ Directive.everyExtension) ∧ Follows text x := by
  by_cases h : keyword ∈ Directive.keywords ∧ text ≠ Directive.everyExtension
  · have hsome : d.declared? (.directive line text keyword) = some text := if_pos h
    rw [reaches_iff_of_declared? hsome, and_iff_right h]
  · have hnone : d.declared? (.directive line text keyword) = none := if_neg h
    exact iff_of_false (not_reaches_of_declared? hnone) fun hx => h hx.1

/-- After a declaration of `text` an extension is missing if it was before and does not follow from
`text`. -/
theorem behavior_declare_iff {text x : String} {b : Behavior} (hb : b ≠ .missing) :
    (d.declare text b).behavior x = .missing ↔ d.behavior x = .missing ∧ ¬Follows text x := by
  show (if Follows text x then b else d.behavior x) = .missing ↔ _
  by_cases hx : Follows text x
  · rw [if_pos hx]
    exact iff_of_false hb fun h => h.2 hx
  · rw [if_neg hx, and_iff_left hx]

/-- An extension remains missing just as long as no step of the unit `Reaches` it. -/
theorem behavior_next_iff (hst : st.ContinuesUnit) (x : String) :
    (d.next st).behavior x = .missing ↔ d.behavior x = .missing ∧ ¬d.Reaches x st := by
  have hidle {st : Step} (hnone : d.declared? st = none) :
      d.behavior x = .missing ↔ d.behavior x = .missing ∧ ¬d.Reaches x st :=
    (and_iff_left (not_reaches_of_declared? hnone)).symm
  cases st with
  | beginUnit => exact hst.elim
  | directive line text keyword =>
    rw [reaches_directive_iff]
    show (d.directive text keyword).behavior x = .missing ↔ _
    rw [directive]
    cases hkeyword : Behavior.ofKeyword? keyword with
    | none => exact (and_iff_left fun h => Behavior.notMem_keywords hkeyword h.1.1).symm
    | some b =>
      obtain ⟨-, hb⟩ := Behavior.ofKeyword?_eq_some_iff.mp hkeyword
      show (if text = Directive.everyExtension then _ else _ : Declarations).behavior x = _ ↔ _
      by_cases htext : text = Directive.everyExtension
      · -- what has been declared is declared anew
        have hall : (d.declareAll b).behavior x = .missing ↔ d.behavior x = .missing := by
          show (if d.behavior x = .missing then Behavior.missing else b) = .missing ↔ _
          by_cases hx : d.behavior x = .missing <;> simp [hx, hb]
        rw [if_pos htext, and_iff_left fun h => h.1.2 htext]
        split
        · exact hall
        · rfl
      · have haccepted : keyword ∈ Directive.keywords ∧ text ≠ Directive.everyExtension :=
          ⟨Behavior.mem_keywords_iff.mpr ⟨b, hkeyword⟩, htext⟩
        rw [if_neg htext, behavior_declare_iff hb, and_iff_right haccepted]
  | declare place ref b =>
    rw [next]
    cases hname : d.nameOf? ref with
    | none => exact hidle hname
    | some text =>
      have hsome : d.declared? (.declare place ref b) = some text := hname
      rw [reaches_iff_of_declared? hsome]
      exact behavior_declare_iff hst.1
  | intern text label => cases label <;> exact hidle rfl
  | _ => exact hidle rfl

end Declarations

namespace Session

/-- A step that goes on with a unit does not suppress warnings. -/
theorem suppressWarnings_next (s : Session) {c : Checker} {st : Step} (hst : st.ContinuesUnit)
    (h : c.options.messages.suppressWarnings = false) :
    (s.next c st).options.messages.suppressWarnings = false := by
  rw [next_options]
  cases st with
  | edit e =>
    cases e with
    | messages m => exact hst
    | _ => exact h
  | _ => exact h

/-- A check does not report that an extension is partly supported. -/
theorem reason_of_check {s : Session} {c : Checker} {place : Place} {feature : String}
    {k : Check ExtensionRef} {d : Diagnostic}
    (h : d ∈ reports (s.effect c (.check place feature k)).signals) :
    d.reason ≠ "extension is only partially supported:" := by
  simp only [effect] at h
  split at h
  · intro heq
    have hmem := Check.reason_mem_reasons h
    rw [heq] at hmem
    exact absurd hmem (by decide)
  · exact absurd h List.not_mem_nil

/-- A step reports once that an extension is partly supported, if it `Reaches` the extension and the
extension has been missing so far. -/
theorem countP_effect {s : Session} {c : Checker} {d : Declarations}
    (hd : d.Describes c.registry s.saved) {st : Step} (hst : st.ContinuesUnit)
    (hsize : (s.effect c st).registry.size ≤ 2 ^ 32) (x : String) :
    (reports (s.effect c st).signals).countP (Diagnostic.callsPartly x) =
      if d.Reaches x st ∧ PartlySupported x ∧ d.behavior x = .missing then 1 else 0 := by
  -- every step that declares nothing has a count of zero on both sides
  have hidle {st : Step} (hnone : d.declared? st = none)
      (h : ∀ diag ∈ reports (s.effect c st).signals,
        diag.reason ≠ "extension is only partially supported:") :
      (reports (s.effect c st).signals).countP (Diagnostic.callsPartly x) =
        if d.Reaches x st ∧ PartlySupported x ∧ d.behavior x = .missing then 1 else 0 := by
    rw [countP_callsPartly_eq_zero x h,
      if_neg fun hsays => Declarations.not_reaches_of_declared? hnone hsays.1]
  cases st with
  | check place feature k => exact hidle rfl fun diag hdiag => reason_of_check hdiag
  | report severity channel place reason token extra =>
    refine hidle rfl fun diag hdiag => ?_
    simp only [effect] at hdiag
    split at hdiag
    · obtain rfl := List.mem_singleton.mp hdiag
      exact hst
    · exact absurd hdiag List.not_mem_nil
  | beginUnit => exact hst.elim
  | directive line text keyword =>
    rw [effect, Directive.countP_apply hd.sound hsize, hd.behavior]
    exact if_congr ((and_assoc.symm).trans
      (and_congr_left' Declarations.reaches_directive_iff.symm)) rfl rfl
  | declare place ref b =>
    obtain ⟨hb, ⟨loc, rfl⟩, href⟩ := hst
    have hown : c.registry.size ≤ 2 ^ 32 := Nat.le_trans (s.evolves_effect c _).size_le hsize
    have hrel := hd.resolve href
    simp only [effect, locate]
    cases hname : d.nameOf? ref with
    | none =>
      rw [hname] at hrel
      generalize s.resolve ref = id? at hrel ⊢
      cases hrel
      have hnone : d.declared? (.declare (.at loc) ref b) = none := hname
      exact (if_neg fun h => Declarations.not_reaches_of_declared? hnone h.1).symm
    | some text =>
      rw [hname] at hrel
      generalize s.resolve ref = id? at hrel ⊢
      cases hrel with
      | some hfind =>
        have hsome : d.declared? (.declare (.at loc) ref b) = some text := hname
        refine (Directive.countP_declare hd.sound hown hb hfind x).trans (if_congr ?_ rfl rfl)
        rw [hd.behavior, Declarations.reaches_iff_of_declared? hsome]
  | intern text label =>
    refine hidle rfl fun diag hdiag => ?_
    rw [effect, reports_map_log] at hdiag
    exact absurd hdiag List.not_mem_nil
  | _ => exact hidle rfl fun diag hdiag => absurd hdiag List.not_mem_nil

/-! ## Runs -/

/-- A session has one checker, which delivers warnings and has the declarations recorded. -/
structure InUnit (s : Session) (c : Checker) (d : Declarations) : Prop where
  checkers : s.checkers = [c]
  describes : d.Describes c.registry s.saved
  warns : c.options.messages.suppressWarnings = false

section

variable {s : Session} {c c' : Checker} {d : Declarations}

/-- A step that goes on with the unit leaves it so, if in the end identities still tell all the
names apart. -/
theorem InUnit.next (h : s.InUnit c d) {st : Step} (hst : st.ContinuesUnit) {rest : List Step}
    (hc' : (s.run ((st :: rest).map (0, ·))).1.checkers = [c'])
    (hsize : c'.registry.size ≤ 2 ^ 32) :
    (s.effect c st).registry.size ≤ 2 ^ 32 ∧
      (s.step 0 st).1.InUnit (s.next c st) (d.next st) := by
  obtain ⟨hnext, hsaved⟩ := step_solo h.checkers st
  obtain ⟨last, hlast, hevolves⟩ := run_solo hnext rest
  obtain rfl : last = c' := List.singleton_inj.mp (hlast.symm.trans hc')
  rw [next_registry] at hevolves
  have hown : (s.effect c st).registry.size ≤ 2 ^ 32 := Nat.le_trans hevolves.size_le hsize
  refine ⟨hown, hnext, ?_, s.suppressWarnings_next hst h.warns⟩
  rw [next_registry, hsaved]
  exact describes_next h.describes hst.isTold hown

/-- What a step reports is delivered, so the warning is, if the step reaches the extension and the
extension has been missing so far. -/
theorem InUnit.countP_step (h : s.InUnit c d) {st : Step} (hst : st.ContinuesUnit)
    (hsize : (s.effect c st).registry.size ≤ 2 ^ 32) (x : String) :
    (s.step 0 st).2.emission.delivered.countP (Diagnostic.callsPartly x) =
      if d.Reaches x st ∧ PartlySupported x ∧ d.behavior x = .missing then 1 else 0 := by
  have hc : s.checkers[0]? = some c := by rw [h.checkers]; rfl
  rw [← countP_effect h.describes hst hsize x, step_delivered hc, Checker.filter_delivers, h.warns]
  rfl

/-- Over a run that goes on with a unit an extension that has been missing is reported once, if it
is partly supported and some step reaches it. -/
theorem InUnit.countP_run (h : s.InUnit c d) {steps : List Step}
    (hsteps : ∀ st ∈ steps, st.ContinuesUnit)
    (hc' : (s.run (steps.map (0, ·))).1.checkers = [c']) (hsize : c'.registry.size ≤ 2 ^ 32)
    (x : String) :
    ((s.run (steps.map (0, ·))).2.flatMap fun reply => reply.emission.delivered).countP
        (Diagnostic.callsPartly x) =
      if d.ReachedBy x steps ∧ PartlySupported x ∧ d.behavior x = .missing then 1 else 0 := by
  induction steps generalizing s c d with
  | nil => exact (if_neg fun h => h.1.elim).symm
  | cons st rest ih =>
    obtain ⟨hst, hrest⟩ := List.forall_mem_cons.mp hsteps
    obtain ⟨hown, hnext⟩ := h.next hst hc' hsize
    have hmissing := Declarations.behavior_next_iff (d := d) hst x
    rw [List.map_cons, run_cons, List.flatMap_cons, List.countP_append, h.countP_step hst hown,
      ih hnext hrest hc']
    by_cases hreaches : d.Reaches x st
    · -- the others find it declared
      have hlater : ¬((d.next st).ReachedBy x rest ∧ PartlySupported x ∧
          (d.next st).behavior x = .missing) := fun h => (hmissing.mp h.2.2).2 hreaches
      rw [if_neg hlater, Nat.add_zero]
      exact if_congr (and_congr_left' (iff_of_true hreaches (Or.inl hreaches))) rfl rfl
    · rw [if_neg fun h => hreaches h.1, Nat.zero_add]
      refine if_congr (and_congr (or_iff_right hreaches).symm (and_congr_right' ?_)) rfl rfl
      rw [hmissing, and_iff_left hreaches]

/-- It is the first step to reach the extension that reports it: at `k` the run is cut in two, and
what was declared before is `Declarations.after` the first part. -/
theorem InUnit.countP_reply (h : s.InUnit c d) {steps : List Step}
    (hsteps : ∀ st ∈ steps, st.ContinuesUnit)
    (hc' : (s.run (steps.map (0, ·))).1.checkers = [c']) (hsize : c'.registry.size ≤ 2 ^ 32)
    (x : String) {k : Nat} {st : Step} {reply : Reply} (hk : steps[k]? = some st)
    (hreply : (s.run (steps.map (0, ·))).2[k]? = some reply) :
    reply.emission.delivered.countP (Diagnostic.callsPartly x) =
      if ((d.after (steps.take k)).Reaches x st ∧ ¬d.ReachedBy x (steps.take k)) ∧
        PartlySupported x ∧ d.behavior x = .missing then 1 else 0 := by
  induction steps generalizing s c d k with
  | nil => exact absurd hk (Option.some_ne_none st).symm
  | cons st' rest ih =>
    obtain ⟨hst, hrest⟩ := List.forall_mem_cons.mp hsteps
    obtain ⟨hown, hnext⟩ := h.next hst hc' hsize
    rw [List.map_cons, run_cons] at hreply
    cases k with
    | zero =>
      obtain rfl : st' = st := Option.some.inj hk
      obtain rfl : (s.step 0 st').2 = reply := Option.some.inj hreply
      rw [h.countP_step hst hown]
      exact if_congr (and_congr_left' (and_iff_left not_false).symm) rfl rfl
    | succ k =>
      rw [ih hnext hrest hc' hk hreply]
      refine if_congr ?_ rfl rfl
      rw [Declarations.behavior_next_iff hst]
      show (((d.next st').after (rest.take k)).Reaches x st ∧ _) ∧ _ ↔
        (((d.next st').after (rest.take k)).Reaches x st ∧
          ¬(d.Reaches x st' ∨ (d.next st').ReachedBy x (rest.take k))) ∧ _
      rw [not_or]
      constructor
      · rintro ⟨⟨hreaches, hnot⟩, hpartly, hbefore, hfirst⟩
        exact ⟨⟨hreaches, hfirst, hnot⟩, hpartly, hbefore⟩
      · rintro ⟨⟨hreaches, hfirst, hnot⟩, hpartly, hbefore⟩
        exact ⟨⟨hreaches, hnot⟩, hpartly, hbefore, hfirst⟩

end

/-- Whatever steps are taken, saved identities remain those of the names that were saved. No bound
on the names is needed: an identity stays what it was found to be. -/
theorem saved_run {s : Session} {c c' : Checker} {d : Declarations} (hs : s.checkers = [c])
    (hr : c.registry.Sound) (hd : d.NamesSaved c.registry s.saved) (steps : List Step)
    (hc' : (s.run (steps.map (0, ·))).1.checkers = [c']) :
    c'.registry.Sound ∧
      (d.after steps).NamesSaved c'.registry (s.run (steps.map (0, ·))).1.saved := by
  induction steps generalizing s c d with
  | nil =>
    obtain rfl : c = c' := List.singleton_inj.mp (hs.symm.trans hc')
    exact ⟨hr, hd⟩
  | cons st rest ih =>
    obtain ⟨hnext, hshare⟩ := step_solo hs st
    have hsound : (s.next c st).registry.Sound := by
      rw [next_registry]
      exact (s.evolves_effect c st).sound hr
    have hnames : (d.next st).NamesSaved (s.next c st).registry (s.step 0 st).1.saved := by
      rw [next_registry, hshare]
      exact saved_share hr hd st
    exact ih hnext hsound hnames hc'

/-- At the start of a session, and whenever a unit has just begun, nothing is declared. -/
theorem describes_of_begun {s : Session} {c c₁ : Checker} {tag : UInt32} (hs : s.checkers = [c])
    (hsaved : s.saved = []) (hfresh : c.registry = .fresh tag) {before : List Step}
    (hbegun : before = [] ∨ before.getLast? = some .beginUnit)
    (hc₁ : (s.run (before.map (0, ·))).1.checkers = [c₁]) :
    (({} : Declarations).after before).Describes c₁.registry
        (s.run (before.map (0, ·))).1.saved ∧
      ∀ x, (({} : Declarations).after before).behavior x = .missing := by
  have hr : c.registry.Sound := by
    rw [hfresh]
    exact Registry.sound_fresh tag
  have hnone : ({} : Declarations).NamesSaved c.registry s.saved := by
    rw [hsaved]
    exact List.Forall₂.nil
  obtain ⟨hsound, hnames⟩ := saved_run hs hr hnone before hc₁
  suffices hmissing : (∀ x, c₁.registry.recorded x = .missing) ∧
      ∀ x, (({} : Declarations).after before).behavior x = .missing from
    ⟨⟨hsound, fun x => (hmissing.1 x).trans (hmissing.2 x).symm, hnames⟩, hmissing.2⟩
  rcases hbegun with rfl | hlast
  · obtain rfl : c = c₁ := List.singleton_inj.mp (hs.symm.trans hc₁)
    rw [hfresh]
    exact ⟨Registry.recorded_fresh tag, fun _ => rfl⟩
  · obtain ⟨earlier, rfl⟩ := List.getLast?_eq_some_iff.mp hlast
    obtain ⟨c₀, hc₀, hevolves⟩ := run_solo hs earlier
    rw [List.map_append, run_append] at hc₁
    obtain rfl : _ = c₁ := List.singleton_inj.mp ((step_solo hc₀ .beginUnit).1.symm.trans hc₁)
    refine ⟨fun x => ?_, fun x => ?_⟩
    · rw [next_registry]
      exact Registry.recorded_reset (hevolves.sound hr).nodup x
    · rw [Declarations.after, List.foldl_append]
      rfl

/-- Over some steps with some replies, from declarations `d` on, an extension is reported as partly
supported once if at all. -/
structure ReportedOnce (d : Declarations) (steps : List Step) (replies : List Reply) (x : String) :
    Prop where
  /-- There is one warning if the catalog says so and some step reaches the extension, and none
  otherwise. -/
  total :
    (replies.flatMap fun reply => reply.emission.delivered).countP (Diagnostic.callsPartly x) =
      if PartlySupported x ∧ d.ReachedBy x steps then 1 else 0
  /-- It is delivered by the first step that reaches the extension, whatever the step declares. -/
  first : ∀ (k : Nat) (st : Step) (reply : Reply), steps[k]? = some st → replies[k]? = some reply →
    reply.emission.delivered.countP (Diagnostic.callsPartly x) =
      if PartlySupported x ∧ (d.after (steps.take k)).Reaches x st ∧
        ¬d.ReachedBy x (steps.take k) then 1 else 0
  /-- It is never delivered by a directive about all extensions or with an unknown keyword. -/
  unsaid : ∀ (k : Nat) (line : Int32) (text keyword : String) (reply : Reply),
    steps[k]? = some (.directive line text keyword) → replies[k]? = some reply →
    text = Directive.everyExtension ∨ keyword ∉ Directive.keywords →
    reply.emission.delivered.countP (Diagnostic.callsPartly x) = 0

/-- A session of one checker, in which anything may have been done before, is at its start, or has
just begun a unit. It goes on with the unit, and warnings are not suppressed. As long as identities
can tell all the listed names apart, that is while `Registry.size` is at most `2 ^ 32`, every
extension is `ReportedOnce`. -/
theorem partly_supported_once {s : Session} {c : Checker} {tag : UInt32} (hs : s.checkers = [c])
    (hsaved : s.saved = []) (hfresh : c.registry = .fresh tag) {before steps : List Step}
    (hbegun : before = [] ∨ before.getLast? = some .beginUnit)
    (hsteps : ∀ st ∈ steps, st.ContinuesUnit) {s₁ : Session} {d : Declarations}
    (hs₁ : (s.run (before.map (0, ·))).1 = s₁) (hd : ({} : Declarations).after before = d)
    {replies : List Reply} (hreplies : (s₁.run (steps.map (0, ·))).2 = replies) :
    ∃ c₁ c', s₁.checkers = [c₁] ∧ (s₁.run (steps.map (0, ·))).1.checkers = [c'] ∧
      (c₁.options.messages.suppressWarnings = false → c'.registry.size ≤ 2 ^ 32 →
        ∀ x, ReportedOnce d steps replies x) := by
  subst hs₁ hd hreplies
  obtain ⟨c₁, hc₁, -⟩ := run_solo hs before
  obtain ⟨c', hc', -⟩ := run_solo hc₁ steps
  obtain ⟨hdescribes, hmissing⟩ := describes_of_begun hs hsaved hfresh hbegun hc₁
  refine ⟨c₁, c', hc₁, hc', fun hwarn hsize x => ?_⟩
  have hunit : (s.run (before.map (0, ·))).1.InUnit c₁ _ := ⟨hc₁, hdescribes, hwarn⟩
  exact {
    total := by
      refine (hunit.countP_run hsteps hc' hsize x).trans (if_congr ?_ rfl rfl)
      rw [and_iff_left (hmissing x), and_comm]
    first := by
      intro k st reply hk hat
      refine (hunit.countP_reply hsteps hc' hsize x hk hat).trans (if_congr ?_ rfl rfl)
      rw [and_iff_left (hmissing x), and_comm]
    unsaid := by
      intro k line text keyword reply hk hat hnot
      refine (hunit.countP_reply hsteps hc' hsize x hk hat).trans (if_neg fun h => ?_)
      obtain ⟨hkeyword, htext⟩ := (Declarations.reaches_directive_iff.mp h.1.1).1
      exact hnot.elim htext fun hunknown => hunknown hkeyword }

/-- What `all` holds of the checkers of a session with one checker holds of that one. -/
theorem of_checkers_all {s : Session} {c : Checker} (hs : s.checkers = [c]) {p : Checker → Bool}
    (h : s.checkers.all p = true) : p c = true := by
  rw [hs] at h
  simpa using h

/-- In a second unit an extension is reported again, when it is disabled under a saved identity, and
not any more when it is enabled after that. -/
theorem partly_supported_once_again :
    ∃ s₁ replies,
      (Session.run { checkers := [.start {} 1 .tracing] }
        [(0, .directive 1 "GL_ARB_gpu_shader5" "warn"),
          (0, .intern "GL_ARB_gpu_shader5" (some "g")), (0, .beginUnit)]).1 = s₁ ∧
      (s₁.run [(0, .directive 2 "all" "warn"), (0, .declare (.at {}) (.saved "g") .disable),
        (0, .directive 4 "GL_ARB_gpu_shader5" "enable")]).2 = replies ∧
      (replies.flatMap fun reply => reply.emission.delivered).countP
        (Diagnostic.callsPartly "GL_ARB_gpu_shader5") = 1 ∧
      ∃ reply, replies[1]? = some reply ∧
        reply.emission.delivered.countP (Diagnostic.callsPartly "GL_ARB_gpu_shader5") = 1 := by
  have hsteps : ∀ st ∈ [Step.directive 2 "all" "warn", .declare (.at {}) (.saved "g") .disable,
      .directive 4 "GL_ARB_gpu_shader5" "enable"], st.ContinuesUnit := by
    simp [Step.ContinuesUnit, Step.IsTold]
  obtain ⟨c₁, c', hc₁, hc', hcount⟩ :=
    @partly_supported_once { checkers := [.start {} 1 .tracing] } _ _ rfl rfl rfl
      [.directive 1 "GL_ARB_gpu_shader5" "warn", .intern "GL_ARB_gpu_shader5" (some "g"),
        .beginUnit] _ (Or.inr rfl) hsteps _ _ rfl rfl _ rfl
  have hwarn := of_checkers_all (p := fun c => !c.options.messages.suppressWarnings) hc₁
    (by decide +kernel)
  have hsize := of_checkers_all (p := fun c => c.registry.size ≤ 2 ^ 32) hc' (by decide +kernel)
  have honce := hcount (by simpa using hwarn) (of_decide_eq_true hsize) "GL_ARB_gpu_shader5"
  refine ⟨_, _, rfl, rfl, honce.total.trans ?_, _, rfl, (honce.first 1 _ _ rfl rfl).trans ?_⟩
  · exact if_pos (by decide +kernel)
  · exact if_pos (by decide +kernel)

/-- A checker that lists `2 ^ 32 + e.index` names is given a directive on one more, and does not
warn of `e` when a directive names it after that. -/
theorem countP_wrapped {s : Session} {c : Checker} (hc : s.checkers[0]? = some c)
    (hr : c.registry.Sound) (htag : c.registry.tag ≠ ExtensionId.catalogOwner) {e : Extension}
    (hsize : c.registry.size = 2 ^ 32 + e.index) {text : String} (hnew : text ∉ c.registry.names)
    (htext : text ≠ Directive.everyExtension) (hunknown : Extension.ofName? text = none) :
    ((s.run [(0, .directive 1 text "enable"), (0, .directive 2 e.name "enable")]).2.flatMap
      fun reply => reply.emission.delivered).countP (Diagnostic.callsPartly e.name) = 0 := by
  have hkeyword : Behavior.ofKeyword? "enable" = some .enable := by decide
  have haccepted : ∀ name, name ≠ Directive.everyExtension → ¬Directive.Rejected name "enable" :=
    fun name hname h => hname ((Directive.rejected_iff hkeyword).mp h).1
  -- the new name is reported as one that is not known
  obtain ⟨d, hmade, hreason, -⟩ := (Directive.handled_apply hr (s.directiveLocation c 1) text
    "enable").unknown (haccepted text htext) htext hunknown (Or.inl htag)
  have hfirst : (s.step 0 (.directive 1 text "enable")).2.emission.delivered.countP
      (Diagnostic.callsPartly e.name) = 0 := by
    refine countP_callsPartly_eq_zero _ fun diag hdiag => ?_
    rw [step_delivered hc, effect, hmade] at hdiag
    rw [List.mem_singleton.mp (List.mem_of_mem_filter hdiag), hreason]
    decide
  -- and the behavior is recorded for `e`, which is not missing any more
  have hlast := step_checker hc (.directive 1 text "enable")
  have hsound : (s.next c (.directive 1 text "enable")).registry.Sound := by
    rw [next_registry]
    exact (s.evolves_effect c _).sound hr
  have hbehavior : (s.next c (.directive 1 text "enable")).registry.behaviorOf e.name =
      .ok .enable := behaviorOf_next_wrapped hr hsize hnew htext hkeyword 1
  have hsecond : ((s.step 0 (.directive 1 text "enable")).1.step 0
      (.directive 2 e.name "enable")).2.emission.delivered = [] := by
    have hknown := fun loc => (Directive.handled_apply hsound loc e.name "enable").known
      (haccepted e.name e.name_ne_everyExtension) e rfl
    rw [step_delivered hlast, effect, hknown, hbehavior, if_neg (by simp)]
    rfl
  rw [run_cons, run_cons, List.flatMap_cons, List.flatMap_cons, List.countP_append, hfirst, hsecond]
  rfl

/-- Past the bound a partly supported extension may go unreported: it is declared by way of a name
that has the number of its place, and a directive on it is the first to name it after that. -/
theorem partly_supported_unreported :
    ∃ (before : List Step) (s₁ : Session) (c₁ : Checker) (d : Declarations) (replies : List Reply),
      before.getLast? = some .beginUnit ∧
      (Session.run { checkers := [.start {} 1 .tracing] } (before.map (0, ·))).1 = s₁ ∧
      ({} : Declarations).after before = d ∧ s₁.checkers = [c₁] ∧
      c₁.options.messages.suppressWarnings = false ∧
      (s₁.run [(0, .directive 1 "GL_VENDOR_x" "enable"),
        (0, .directive 2 "GL_ARB_gpu_shader5" "enable")]).2 = replies ∧
      PartlySupported "GL_ARB_gpu_shader5" ∧
      d.ReachedBy "GL_ARB_gpu_shader5"
        [.directive 1 "GL_VENDOR_x" "enable", .directive 2 "GL_ARB_gpu_shader5" "enable"] ∧
      (replies.flatMap fun reply => reply.emission.delivered).countP
        (Diagnostic.callsPartly "GL_ARB_gpu_shader5") = 0 := by
  obtain ⟨texts, r, hc, hsound, htag, hsize, hnew⟩ :=
    exists_interned_solo (s := { checkers := [.start {} 1 .tracing] }) rfl (Registry.sound_fresh 1)
      (n := 2 ^ 32 + Extension.arbGpuShader5.index) (by decide +kernel)
      (show "GL_VENDOR_x" ∉ _ by decide +kernel)
  have hbegun : (Session.run { checkers := [.start {} 1 .tracing] }
      (((texts.map fun name => Step.intern name none) ++ [Step.beginUnit]).map (0, ·))).1.checkers =
        [{ Checker.start {} 1 .tracing with registry := r.reset }] := by
    rw [List.map_append, run_append]
    exact (step_solo hc .beginUnit).1
  have hnone : ({} : Declarations).after
      ((texts.map fun name => .intern name none) ++ [.beginUnit]) = {} := by
    rw [Declarations.after, List.foldl_append]
    exact congrArg (fun d => Declarations.next d .beginUnit) (after_interns texts)
  have hreset : r.reset.Sound := (Registry.Change.reset r).evolves.sound hsound
  refine ⟨_, _, _, _, _, List.getLast?_concat, rfl, hnone, hbegun, rfl, rfl, by decide +kernel,
    by decide +kernel, ?_⟩
  exact countP_wrapped (c := { Checker.start {} 1 .tracing with registry := r.reset })
    (e := .arbGpuShader5) (hbegun ▸ rfl) hreset (htag.trans_ne (by decide)) hsize
    hnew (by decide) (by decide +kernel)

end Session

end ShaderCompat
