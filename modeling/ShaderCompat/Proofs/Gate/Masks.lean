import Mathlib.Data.Nat.Bitwise
import ShaderCompat.Proofs.Gate.Denial

/-!
# Masks bit by bit

Checks name profiles and stages by words of bits, and each profile or stage looks at its own bit. So
a gate that is about some profiles only, and passes in the others, does for the union of two masks
what it does for the one that has the profile; and for masks apart that is what it does for the one
and then the other. The gates that require a profile or a stage refuse for a union exactly if they
refuse for both masks. Bits that belong to nothing are never looked at (`Checker.masks_bitwise`).
-/

namespace ShaderCompat

/-! ## Words -/

section

variable {a b w : UInt32}

/-- Masking with a word of a single bit `k` asks for that bit. -/
theorem and_ne_zero_iff {k : Nat} (hw : w.toNat = 2 ^ k) :
    a &&& w ≠ 0 ↔ a.toNat.testBit k = true := by
  have hnat : (a &&& w).toNat = (a.toNat.testBit k).toNat * 2 ^ k := by
    rw [UInt32.toNat_and, hw, Nat.and_two_pow]
  rw [ne_eq, ← UInt32.toNat_inj, hnat]
  cases a.toNat.testBit k <;> simp

/-- A bit of `a ||| b` is one of either. -/
theorem or_and_ne_zero_iff {k : Nat} (hw : w.toNat = 2 ^ k) :
    (a ||| b) &&& w ≠ 0 ↔ a &&& w ≠ 0 ∨ b &&& w ≠ 0 := by
  rw [and_ne_zero_iff hw, and_ne_zero_iff hw, and_ne_zero_iff hw, UInt32.toNat_or, Nat.testBit_or,
    Bool.or_eq_true]

/-- Words that have the bit `w` in common are not apart. -/
theorem and_ne_zero_of_common {k : Nat} (hw : w.toNat = 2 ^ k) (ha : a &&& w ≠ 0)
    (hb : b &&& w ≠ 0) : a &&& b ≠ 0 := by
  have hboth : (a &&& b) &&& w ≠ 0 := by
    rw [and_ne_zero_iff hw, UInt32.toNat_and, Nat.testBit_and, (and_ne_zero_iff hw).mp ha,
      (and_ne_zero_iff hw).mp hb]
    rfl
  intro hzero
  rw [hzero, UInt32.zero_and] at hboth
  exact hboth rfl

/-- What lies within the `known` bits does not depend on the others. -/
theorem and_eq_of_known {known : UInt32} (hw : known &&& w = w) (h : a &&& known = b &&& known) :
    a &&& w = b &&& w := by
  rw [← hw, ← UInt32.and_assoc, ← UInt32.and_assoc, h]

end

/-- Each profile has a single `bit`. -/
theorem Profile.exists_bit (p : Profile) : ∃ k, p.bit.toNat = 2 ^ k := by
  cases p with
  | none => exact ⟨0, rfl⟩
  | core => exact ⟨1, rfl⟩
  | compatibility => exact ⟨2, rfl⟩
  | es => exact ⟨3, rfl⟩

/-- Each stage has a single `bit`. -/
theorem Stage.exists_bit (s : Stage) : ∃ k, s.bit.toNat = 2 ^ k := by
  cases s with
  | vertex => exact ⟨0, rfl⟩
  | tessControl => exact ⟨1, rfl⟩
  | tessEvaluation => exact ⟨2, rfl⟩
  | geometry => exact ⟨3, rfl⟩
  | fragment => exact ⟨4, rfl⟩
  | compute => exact ⟨5, rfl⟩

namespace ProfileSet

variable {a b : ProfileSet} {p : Profile}

/-- A union has the profiles of both sets. -/
theorem mem_union_iff : p ∈ a ∪ b ↔ p ∈ a ∨ p ∈ b := by
  obtain ⟨k, hk⟩ := p.exists_bit
  exact or_and_ne_zero_iff hk

/-- Of two sets whose words have no bit in common one at most has the profile. -/
theorem notMem_of_apart (h : a.bits &&& b.bits = 0) (hp : p ∈ a) : p ∉ b := by
  obtain ⟨k, hk⟩ := p.exists_bit
  exact fun hb => and_ne_zero_of_common hk hp hb h

/-- The four lowest bits (`15`) belong to profiles, and no others. -/
theorem mem_congr (h : a.bits &&& 15 = b.bits &&& 15) : p ∈ a ↔ p ∈ b := by
  have hknown : 15 &&& p.bit = p.bit := by cases p <;> decide
  show a.bits &&& p.bit ≠ 0 ↔ b.bits &&& p.bit ≠ 0
  rw [and_eq_of_known hknown h]

end ProfileSet

namespace StageSet

variable {a b : StageSet} {s : Stage}

/-- A union has the stages of both sets. -/
theorem mem_union_iff : s ∈ a ∪ b ↔ s ∈ a ∨ s ∈ b := by
  obtain ⟨k, hk⟩ := s.exists_bit
  exact or_and_ne_zero_iff hk

/-- The six lowest bits (`63`) belong to stages, and no others. -/
theorem mem_congr (h : a.bits &&& 63 = b.bits &&& 63) : s ∈ a ↔ s ∈ b := by
  have hknown : 63 &&& s.bit = s.bit := by cases s <;> decide
  show a.bits &&& s.bit ≠ 0 ↔ b.bits &&& s.bit ≠ 0
  rw [and_eq_of_known hknown h]

/-- `listed` has the stages of the set. -/
theorem mem_listed_iff : s ∈ a.listed ↔ s ∈ a := by
  have hall : s ∈ Stage.all := by cases s <;> decide
  rw [listed, List.mem_filter, and_iff_right hall, decide_eq_true_iff]

/-- Sets with the same bits below `63` list the same stages. -/
theorem listed_congr (h : a.bits &&& 63 = b.bits &&& 63) : a.listed = b.listed :=
  List.filter_congr fun _ _ => decide_eq_decide.mpr (mem_congr h)

end StageSet

/-! ## Gates about some profiles -/

namespace Check

/-- The gate takes a set of profiles and passes in all others. There are three such gates:
`version`, `deprecated` and `removed`. -/
inductive Confined : (ProfileSet → Check ExtensionId) → Prop
  | version (minimum : Int32) (ids : List ExtensionId) :
    Confined fun profiles => .version profiles minimum ids
  | deprecated (since : Int32) : Confined fun profiles => .deprecated profiles since
  | removed (since : Int32) : Confined fun profiles => .removed profiles since

variable {o : Options} {r : Registry} {loc : Location} {feature : String}
variable {gate : ProfileSet → Check ExtensionId} {a b : ProfileSet}

/-- A `Confined` gate asks of its set only whether the profile is in it. -/
theorem Confined.run_congr (h : Confined gate) (hab : o.profile ∈ a ↔ o.profile ∈ b) :
    (gate a).run o r loc feature = (gate b).run o r loc feature := by
  cases h with
  | version minimum ids =>
    show Gate.version o r loc a minimum ids feature = Gate.version o r loc b minimum ids feature
    simp only [Gate.version, hab]
  | deprecated since =>
    show Gate.deprecated o loc a since feature = Gate.deprecated o loc b since feature
    simp only [Gate.deprecated, hab]
  | removed since =>
    show Gate.removed o loc a since feature = Gate.removed o loc b since feature
    simp only [Gate.removed, hab]

/-- In a profile that is not in the set a `Confined` gate does nothing. -/
theorem Confined.run_of_notMem (h : Confined gate) (ha : o.profile ∉ a) :
    (gate a).run o r loc feature = pure () := by
  cases h with
  | version minimum ids => exact Gate.version_of_notMem loc feature ha minimum
  | deprecated since => exact if_neg fun hall => ha hall.1
  | removed since => exact if_neg fun hall => ha hall.1

/-- To `Check.profile`, too, it matters whether the profile is in the set. -/
theorem run_profile_congr (hab : o.profile ∈ a ↔ o.profile ∈ b) :
    (Check.profile a).run o r loc feature = (Check.profile b).run o r loc feature := by
  show Gate.profile o loc a feature = Gate.profile o loc b feature
  simp only [Gate.profile, hab]

/-- `Check.stage` lists the stages of its set, so it goes by all the known bits. -/
theorem run_stage_congr {a b : StageSet} (h : a.bits &&& 63 = b.bits &&& 63) :
    (Check.stage a).run o r loc feature = (Check.stage b).run o r loc feature := by
  rw [run_stage, run_stage, denialSignals, denialSignals, denial?_stage, denial?_stage,
    StageSet.listed_congr h]
  simp only [StageSet.mem_congr h]

end Check

/-! ## Checks -/

namespace Checker

variable {c : Checker} {loc : Location} {feature : String} {k k' : Check ExtensionId}

/-- Checks that `run` alike do the same to the checker. -/
theorem check_congr
    (h : k.run c.options c.registry loc feature = k'.run c.options c.registry loc feature) :
    c.check loc feature k = c.check loc feature k' := by
  rw [check, check, h]

/-- A check whose `run` is `pure ()` leaves the checker as it is. -/
theorem check_of_pure (h : k.run c.options c.registry loc feature = pure ()) :
    c.check loc feature k = (c, {}, .ok ()) := by
  rw [check, h]
  rfl

/-- No check touches the `options`. -/
theorem options_check (c : Checker) (loc : Location) (feature : String) (k : Check ExtensionId) :
    (c.check loc feature k).1.options = c.options := by
  show (c.receiveAll (k.run c.options c.registry loc feature).signals).1.options = c.options
  rw [receiveAll_checker]

/-- Two checks, `k` and then `k'`, of which the second is run in any case. -/
def checkBoth (c : Checker) (loc : Location) (feature : String) (k k' : Check ExtensionId) :
    Checker × Emission × Except Refusal Unit :=
  let (c, emission, result) := c.check loc feature k
  let (c, emission', result') := c.check loc feature k'
  (c, emission ++ emission', result >>= fun _ => result')

/-- `Check.profile` delivers its refusal, which can be a warning, or nothing. -/
theorem delivered_profile (c : Checker) (loc : Location) (feature : String)
    (profiles : ProfileSet) :
    (c.check loc feature (.profile profiles)).2.1.delivered =
      if c.options.profile ∈ profiles then []
      else [Gate.wrongProfile c.options.mismatch loc feature c.options.profile].filter
        c.delivers := by
  rw [check, receiveAll_delivered, Check.run_profile, Check.denialSignals,
    Check.denial?_profile]
  split <;> rfl

/-- `Check.stage` delivers its refusal, which is an error, or nothing. -/
theorem delivered_stage (c : Checker) (loc : Location) (feature : String) (stages : StageSet) :
    (c.check loc feature (.stage stages)).2.1.delivered =
      if c.options.stage ∈ stages then []
      else [Gate.wrongStage loc feature c.options.stage stages.listed] := by
  rw [check, receiveAll_delivered, Check.run_stage, Check.denialSignals,
    Check.denial?_stage]
  split
  · rfl
  · exact List.filter_cons_of_pos (delivers_of_isError rfl)

section

variable (c : Checker) (loc : Location) (feature : String)

/-- `Check.profile` delivers nothing just if the profile is in the set or its refusal is a warning
that is dropped. -/
theorem delivered_profile_eq_nil_iff {profiles : ProfileSet} :
    (c.check loc feature (.profile profiles)).2.1.delivered = [] ↔
      c.options.profile ∈ profiles ∨
        ¬c.delivers (Gate.wrongProfile c.options.mismatch loc feature c.options.profile) := by
  rw [delivered_profile]
  by_cases hp : c.options.profile ∈ profiles
  · rw [if_pos hp]
    exact iff_of_true rfl (.inl hp)
  · rw [if_neg hp, or_iff_right hp, List.filter_eq_nil_iff, List.forall_mem_singleton]

/-- `Check.stage` delivers nothing just if the stage is in the set, for its refusal is an error. -/
theorem delivered_stage_eq_nil_iff {stages : StageSet} :
    (c.check loc feature (.stage stages)).2.1.delivered = [] ↔ c.options.stage ∈ stages := by
  rw [delivered_stage]
  by_cases hs : c.options.stage ∈ stages
  · rw [if_pos hs]
    exact iff_of_true rfl hs
  · rw [if_neg hs]
    exact iff_of_false (List.cons_ne_nil _ _) hs

/-- `Check.profile` is silent for `a ∪ b` exactly if it is for one of the sets. -/
theorem delivered_profile_union_iff (a b : ProfileSet) :
    (c.check loc feature (.profile (a ∪ b))).2.1.delivered = [] ↔
      (c.check loc feature (.profile a)).2.1.delivered = [] ∨
        (c.check loc feature (.profile b)).2.1.delivered = [] := by
  rw [delivered_profile_eq_nil_iff, delivered_profile_eq_nil_iff, delivered_profile_eq_nil_iff,
    ProfileSet.mem_union_iff, or_or_distrib_right]

/-- `Check.stage` is silent for `a ∪ b` exactly if it is for one of the sets. -/
theorem delivered_stage_union_iff (a b : StageSet) :
    (c.check loc feature (.stage (a ∪ b))).2.1.delivered = [] ↔
      (c.check loc feature (.stage a)).2.1.delivered = [] ∨
        (c.check loc feature (.stage b)).2.1.delivered = [] := by
  rw [delivered_stage_eq_nil_iff, delivered_stage_eq_nil_iff, delivered_stage_eq_nil_iff,
    StageSet.mem_union_iff]

/-- What `Check.profile` delivers, if anything, is its refusal. -/
theorem delivered_profile_of_ne_nil {profiles : ProfileSet}
    (h : (c.check loc feature (.profile profiles)).2.1.delivered ≠ []) :
    (c.check loc feature (.profile profiles)).2.1.delivered =
      [Gate.wrongProfile c.options.mismatch loc feature c.options.profile] := by
  obtain ⟨hp, hd⟩ := not_or.mp (mt (c.delivered_profile_eq_nil_iff loc feature).mpr h)
  rw [delivered_profile, if_neg hp, List.filter_cons_of_pos (not_not.mp hd)]
  rfl

end

/-- The refusal of `Check.stage` is counted. -/
theorem errors_stage (c : Checker) (loc : Location) (feature : String) {stages : StageSet}
    (h : c.options.stage ∉ stages) :
    (c.check loc feature (.stage stages)).1.errors = c.errors + 1 := by
  have hids : ∀ id ∈ (Check.stage stages : Check ExtensionId).ids,
      c.registry.refusal? id = none := fun id hid => absurd hid List.not_mem_nil
  rw [errors_check, Check.errorCount_of_isGate rfl hids, Check.raises, Check.refuses,
    decide_eq_true h]
  rfl

/-- `Check.stage` refuses for a union what it refuses for both masks, and the stages that it lists
are those that it lists for one of them. -/
theorem stage_union_refusal (c : Checker) (loc : Location) (feature : String) {a b : StageSet}
    (h : (c.check loc feature (.stage (a ∪ b))).2.1.delivered ≠ []) :
    (c.check loc feature (.stage (a ∪ b))).1.errors = c.errors + 1 ∧
      ∃ listed listedA listedB : List Stage,
        (c.check loc feature (.stage (a ∪ b))).2.1.delivered =
          [Gate.wrongStage loc feature c.options.stage listed] ∧
        (c.check loc feature (.stage a)).2.1.delivered =
          [Gate.wrongStage loc feature c.options.stage listedA] ∧
        (c.check loc feature (.stage b)).2.1.delivered =
          [Gate.wrongStage loc feature c.options.stage listedB] ∧
        (∀ s, s ∈ listed ↔ s ∈ listedA ∨ s ∈ listedB) ∧ listed.Sublist Stage.all := by
  have hmem := mt (c.delivered_stage_eq_nil_iff loc feature).mpr h
  obtain ⟨ha, hb⟩ := not_or.mp (mt StageSet.mem_union_iff.mpr hmem)
  refine ⟨errors_stage c loc feature hmem, (a ∪ b).listed, a.listed, b.listed, ?_, ?_, ?_,
    fun s => ?_, List.filter_sublist⟩
  · rw [delivered_stage, if_neg hmem]
  · rw [delivered_stage, if_neg ha]
  · rw [delivered_stage, if_neg hb]
  · rw [StageSet.mem_listed_iff, StageSet.mem_listed_iff, StageSet.mem_listed_iff,
      StageSet.mem_union_iff]

end Checker

namespace Check.Confined

variable {c : Checker} {loc : Location} {feature : String}
variable {gate : ProfileSet → Check ExtensionId} {a b : ProfileSet}

/-- If the first set has the profile, a `Confined` gate does not look at the second. -/
theorem check_union_of_mem (h : Confined gate) (ha : c.options.profile ∈ a) :
    c.check loc feature (gate (a ∪ b)) = c.check loc feature (gate a) :=
  Checker.check_congr (h.run_congr (iff_of_true (ProfileSet.mem_union_iff.mpr (.inl ha)) ha))

/-- If the first set does not have the profile, the second decides. -/
theorem check_union_of_notMem (h : Confined gate) (ha : c.options.profile ∉ a) :
    c.check loc feature (gate (a ∪ b)) = c.check loc feature (gate b) :=
  Checker.check_congr (h.run_congr (ProfileSet.mem_union_iff.trans (or_iff_right ha)))

/-- Of two masks that are apart at most one has the profile, so that one of the checks of
`checkBoth` does nothing. -/
theorem check_union_of_apart (h : Confined gate) (hapart : a.bits &&& b.bits = 0) :
    c.check loc feature (gate (a ∪ b)) = c.checkBoth loc feature (gate a) (gate b) := by
  rw [Checker.checkBoth]
  by_cases ha : c.options.profile ∈ a
  · -- the second gate passes, and only the result of the first is left
    have hsecond : ((c.check loc feature (gate a)).1).check loc feature (gate b) =
        ((c.check loc feature (gate a)).1, {}, .ok ()) := by
      refine Checker.check_of_pure (h.run_of_notMem ?_)
      rw [Checker.options_check]
      exact ProfileSet.notMem_of_apart hapart ha
    rw [h.check_union_of_mem ha]
    simp only [hsecond, Emission.append_empty]
    refine Prod.ext rfl (Prod.ext rfl ?_)
    show _ = (c.check loc feature (gate a)).2.2 >>= fun _ => Except.ok ()
    cases (c.check loc feature (gate a)).2.2 <;> rfl
  · -- the first gate passes
    have hfirst : c.check loc feature (gate a) = (c, {}, .ok ()) :=
      Checker.check_of_pure (h.run_of_notMem ha)
    rw [h.check_union_of_notMem ha, hfirst]
    rfl

end Check.Confined

namespace Checker

/-- How a checker reads masks, at a place and for a feature. -/
structure Bitwise (c : Checker) (loc : Location) (feature : String) : Prop where
  /-- A gate that is about some profiles does for a union what it does for the first mask, if that
  has the profile. -/
  first : ∀ gate, Check.Confined gate → ∀ a b : ProfileSet, c.options.profile ∈ a →
    c.check loc feature (gate (a ∪ b)) = c.check loc feature (gate a)
  /-- Otherwise it does what it does for the second. -/
  second : ∀ gate, Check.Confined gate → ∀ a b : ProfileSet, c.options.profile ∉ a →
    c.check loc feature (gate (a ∪ b)) = c.check loc feature (gate b)
  /-- For masks that are apart this is what it does for the one and then for the other. -/
  apart : ∀ gate, Check.Confined gate → ∀ a b : ProfileSet, a.bits &&& b.bits = 0 →
    c.check loc feature (gate (a ∪ b)) = c.checkBoth loc feature (gate a) (gate b)
  /-- The gate that requires a profile delivers nothing for a union exactly if it delivers nothing
  for one of the masks. -/
  profile : ∀ a b : ProfileSet, (c.check loc feature (.profile (a ∪ b))).2.1.delivered = [] ↔
    (c.check loc feature (.profile a)).2.1.delivered = [] ∨
      (c.check loc feature (.profile b)).2.1.delivered = []
  /-- Otherwise it delivers its refusal alone. -/
  profileRefusal : ∀ a b : ProfileSet,
    (c.check loc feature (.profile (a ∪ b))).2.1.delivered ≠ [] →
      (c.check loc feature (.profile (a ∪ b))).2.1.delivered =
        [Gate.wrongProfile c.options.mismatch loc feature c.options.profile]
  /-- So does the gate that requires a stage. -/
  stage : ∀ a b : StageSet, (c.check loc feature (.stage (a ∪ b))).2.1.delivered = [] ↔
    (c.check loc feature (.stage a)).2.1.delivered = [] ∨
      (c.check loc feature (.stage b)).2.1.delivered = []
  /-- Its refusal is a counted error in any case, and lists the stages that it would list for one of
  the masks, in pipeline order. -/
  stageRefusal : ∀ a b : StageSet, (c.check loc feature (.stage (a ∪ b))).2.1.delivered ≠ [] →
    (c.check loc feature (.stage (a ∪ b))).1.errors = c.errors + 1 ∧
      ∃ listed listedA listedB : List Stage,
        (c.check loc feature (.stage (a ∪ b))).2.1.delivered =
          [Gate.wrongStage loc feature c.options.stage listed] ∧
        (c.check loc feature (.stage a)).2.1.delivered =
          [Gate.wrongStage loc feature c.options.stage listedA] ∧
        (c.check loc feature (.stage b)).2.1.delivered =
          [Gate.wrongStage loc feature c.options.stage listedB] ∧
        (∀ s, s ∈ listed ↔ s ∈ listedA ∨ s ∈ listedB) ∧ listed.Sublist Stage.all
  /-- Bits that belong to no profile do not matter. -/
  profileBits : ∀ gate, Check.Confined gate ∨ gate = Check.profile → ∀ a b : ProfileSet,
    a.bits &&& 15 = b.bits &&& 15 → c.check loc feature (gate a) = c.check loc feature (gate b)
  /-- Nor do bits that belong to no stage. -/
  stageBits : ∀ a b : StageSet, a.bits &&& 63 = b.bits &&& 63 →
    c.check loc feature (.stage a) = c.check loc feature (.stage b)

/-- Every checker reads masks bit by bit, as `Bitwise` says, whatever bits are in them. -/
theorem masks_bitwise (c : Checker) (loc : Location) (feature : String) :
    c.Bitwise loc feature where
  first _ h _ _ := h.check_union_of_mem
  second _ h _ _ := h.check_union_of_notMem
  apart _ h _ _ := h.check_union_of_apart
  profile := c.delivered_profile_union_iff loc feature
  profileRefusal _ _ := c.delivered_profile_of_ne_nil loc feature
  stage := c.delivered_stage_union_iff loc feature
  stageRefusal _ _ := c.stage_union_refusal loc feature
  profileBits := by
    rintro gate (h | rfl) a b hab
    · exact check_congr (h.run_congr (ProfileSet.mem_congr hab))
    · exact check_congr (Check.run_profile_congr (ProfileSet.mem_congr hab))
  stageBits _ _ h := check_congr (Check.run_stage_congr h)

/-- One version gate for two named profiles, and one for each, with bits that belong to no profile
in the masks. The feature is refused once. -/
theorem masks_bitwise_apart :
    let c := Checker.start { version := 400, profile := .compatibility } 1 (.recording [])
    let core : ProfileSet := ⟨0xF0000002⟩
    let compatibility : ProfileSet := ⟨0xF004⟩
    c.check {} "float16" (.version (core ∪ compatibility) 450 []) =
        c.checkBoth {} "float16" (.version core 450 []) (.version compatibility 450 []) ∧
      (c.check {} "float16" (.version (core ∪ compatibility) 450 [])).1.errors = 1 ∧
      c.check {} "float16" (.profile core) = c.check {} "float16" (.profile (.only .core)) := by
  have hbits := masks_bitwise
    (Checker.start { version := 400, profile := .compatibility } 1 (.recording [])) {} "float16"
  exact ⟨hbits.apart _ (.version 450 []) ⟨0xF0000002⟩ ⟨0xF004⟩ (by decide), by decide,
    hbits.profileBits Check.profile (.inr rfl) ⟨0xF0000002⟩ (.only .core) (by decide)⟩

end Checker

end ShaderCompat
