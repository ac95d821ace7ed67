import Mathlib.Data.Bool.Basic
import ShaderCompat.Proofs.Gate.ErrorCount

/-!
# Newer versions and more extensions

A shader that declares a newer version, or lets more extensions be used, is refused less. Of two
configurations that differ in the version only, and two registries of which one lets at least as
much as the other, the gates that ask for something raise an error in the second only where they do
in the first (`Check.raises_of_raises`), and the gates that retire a feature the other way around
(`Check.raises_of_retires`). Checks change nothing that they read, so the errors of a list of them
add up, and `Checker.availability_monotone` compares the sums.
-/

namespace ShaderCompat

/-! ## How much is let -/

/-- How much a behavior lets a shader use of an extension: nothing if it is `missing`, nothing but
with `relaxedErrors` under `disable`. -/
def Behavior.rank : Behavior → Nat
  | .missing => 0
  | .disable => 1
  | .warn | .enable | .require => 2

/-- Two registries serve an identity each, and `r'` lets at least as much for `id'` as `r` for `id`,
by the `rank` of the behaviors. -/
def Registry.AtMost (r r' : Registry) (id id' : ExtensionId) : Prop :=
  ∃ b b', r.behavior id = .ok b ∧ r'.behavior id' = .ok b' ∧ b.rank ≤ b'.rank

/-- The same configuration for what a gate asks of it, but for a `version` that is no older. -/
structure Options.NoNewer (o o' : Options) : Prop where
  profile : o'.profile = o.profile
  version : o.version ≤ o'.version
  stage : o'.stage = o.stage
  target : o'.target = o.target
  messages : o'.messages = o.messages

/-- A behavior of no lower `rank` may be used, if the other may. -/
theorem Behavior.isUsable_of_rank_le {b b' : Behavior} (h : b.rank ≤ b'.rank)
    (hb : b.isUsable = true) : b'.isUsable = true := by
  cases b' <;> cases b <;> simp_all [rank, isUsable]

/-- An extension gate that passes on account of a behavior passes on account of one of no lower
`rank`. -/
theorem Options.lets_of_rank_le {o o' : Options} (ho : o.NoNewer o') {b b' : Behavior}
    (h : b.rank ≤ b'.rank) (hb : o.lets b = true) : o'.lets b' = true := by
  unfold lets Gate.tolerates at *
  rw [ho.messages]
  cases b' <;> cases b <;> simp_all [Behavior.rank, Behavior.isTurnedOn]

namespace Registry

variable {ι : Type} {r r' : Registry} {f g : ι → ExtensionId} {p q : Behavior → Bool}

/-- Both registries serve the identity. -/
theorem AtMost.served {id id' : ExtensionId} (h : r.AtMost r' id id') :
    r.refusal? id = none ∧ r'.refusal? id' = none := by
  obtain ⟨b, b', hb, hb', -⟩ := h
  exact ⟨served_of_behavior hb, served_of_behavior hb'⟩

/-- Identities that stand for the same name, of which the second registry has recorded no less. -/
theorem AtMost.of_name (hr : r.names.Nodup) (hr' : r'.names.Nodup) {id id' : ExtensionId}
    {text : String} (hid : r.name id = .ok text) (hid' : r'.name id' = .ok text)
    (hrank : (r.recorded text).rank ≤ (r'.recorded text).rank) : r.AtMost r' id id' :=
  ⟨_, _, behavior_of_name hr hid, behavior_of_name hr' hid', hrank⟩

/-- What one of some extensions is enough for in the first registry, one is in the second. -/
theorem any_has_of_atMost {is : List ι} (h : ∀ i ∈ is, r.AtMost r' (f i) (g i))
    (hpq : ∀ {b b' : Behavior}, b.rank ≤ b'.rank → p b = true → q b' = true)
    (hany : (is.map f).any (r.has p) = true) : (is.map g).any (r'.has q) = true := by
  rw [List.any_map, List.any_eq_true] at hany ⊢
  obtain ⟨i, hi, hp⟩ := hany
  obtain ⟨b, b', hb, hb', hrank⟩ := h i hi
  refine ⟨i, hi, ?_⟩
  show r'.has q (g i) = true
  rw [has_of_behavior hb']
  exact hpq hrank ((has_of_behavior hb).symm.trans hp)

end Registry

/-! ## Gates -/

namespace Check

variable {ι : Type} {o o' : Options} {r r' : Registry} {f g : ι → ExtensionId}

/-- Whether a check is about a feature that some version takes away: `deprecated` or `removed`. -/
def retires : Check ι → Bool
  | .deprecated .. | .removed .. => true
  | _ => false

@[simp] theorem retires_map {κ : Type} (f : ι → κ) (k : Check ι) :
    (k.map f).retires = k.retires := by
  cases k <;> rfl

/-- A gate that asks for something refuses it in the second case only where it does in the first. -/
theorem refuses_of_refuses (ho : o.NoNewer o') {k : Check ι} (hk : k.retires = false)
    (h : ∀ i ∈ k.ids, r.AtMost r' (f i) (g i)) (hrefuses : (k.map g).refuses o' r' = true) :
    (k.map f).refuses o r = true := by
  -- only three things can differ: the version, the ranks, and which identities are listed
  cases k with
  | profile profiles =>
    rw [map, refuses, ho.profile] at hrefuses
    exact hrefuses
  | version profiles minimum ids =>
    rw [map, refuses, decide_eq_true_eq, ho.profile] at hrefuses
    rw [map, refuses, decide_eq_true_eq]
    obtain ⟨hprofile, hversion, hids⟩ := hrefuses
    refine ⟨hprofile, ?_, ?_⟩
    · rintro ⟨hpositive, hle⟩
      exact hversion ⟨hpositive, Int32.le_trans hle ho.version⟩
    · exact fun hany => hids (Registry.any_has_of_atMost h Behavior.isUsable_of_rank_le hany)
  | stage stages =>
    rw [map, refuses, ho.stage] at hrefuses
    exact hrefuses
  | extensions channel ids =>
    rw [map, refuses, Bool.not_eq_true'] at hrefuses ⊢
    refine Bool.eq_false_iff.mpr fun hany => Bool.eq_false_iff.mp hrefuses ?_
    exact Registry.any_has_of_atMost h (Options.lets_of_rank_le ho) hany
  | withoutSpirv | withoutVulkan | vulkanOnly | spirvOnly =>
    rw [map, refuses, ho.target] at hrefuses
    exact hrefuses
  | deprecated | removed => exact absurd hk.symm Bool.false_ne_true
  | _ => exact hrefuses

/-- Such a gate reports a refusal with the same severity in both cases, so it raises an error in the
second only where it does in the first. -/
theorem raises_of_raises (ho : o.NoNewer o') {k : Check ι} (hk : k.retires = false)
    (h : ∀ i ∈ k.ids, r.AtMost r' (f i) (g i)) (hraises : (k.map g).raises o' r' = true) :
    (k.map f).raises o r = true := by
  have hmismatch : o'.mismatch = o.mismatch := by
    rw [Options.mismatch, Options.mismatch, ho.messages]
  have hseverity : (k.map g).severity o' = (k.map f).severity o := by
    cases k with
    | profile | version => exact hmismatch
    | deprecated | removed => exact absurd hk.symm Bool.false_ne_true
    | _ => rfl
  rw [raises, Bool.and_eq_true, hseverity] at hraises
  rw [raises, Bool.and_eq_true]
  exact ⟨refuses_of_refuses ho hk h hraises.1, hraises.2⟩

/-- A gate that retires a feature raises an error at a newer version where it does at an older. -/
theorem raises_of_retires {k : Check ι} (hk : k.retires = true) (hprofile : o'.profile = o.profile)
    (hversion : o.version ≤ o'.version) (hforward : o'.forwardCompatible = o.forwardCompatible)
    (hraises : (k.map f).raises o r = true) : (k.map g).raises o' r' = true := by
  have hseverity : (k.map g).severity o' = (k.map f).severity o := by
    cases k with
    | deprecated profiles since =>
      show (if o'.forwardCompatible then Severity.error else .warning) = _
      rw [hforward]
      rfl
    | removed profiles since => rfl
    | _ => exact absurd hk Bool.false_ne_true
  rw [raises, Bool.and_eq_true] at hraises ⊢
  refine ⟨?_, hseverity ▸ hraises.2⟩
  cases k with
  | deprecated profiles since | removed profiles since =>
    obtain ⟨hin, hsince⟩ := of_decide_eq_true hraises.1
    exact decide_eq_true ⟨hprofile ▸ hin, Int32.le_trans hsince hversion⟩
  | _ => exact absurd hk Bool.false_ne_true

/-- The gates of a check that asks for something ask for something. -/
theorem retires_of_mem_parts {k : Check ExtensionId} (hk : k.retires = false) {feature : String}
    {part : Check ExtensionId × String} (h : part ∈ k.parts feature) : part.1.retires = false := by
  have hall : ((k.parts feature).all fun p => !p.1.retires) = true := by
    cases k with
    | deprecated | removed => exact absurd hk.symm Bool.false_ne_true
    | int64 builtIn | int16 builtIn | float16 builtIn => cases builtIn <;> rfl
    | _ => rfl
  exact (Bool.not_eq_true' _).mp (List.all_eq_true.mp hall part h)

/-- A check that asks for something reports no more errors in the second case. -/
theorem errorCount_le (ho : o.NoNewer o') (hcatalog : ∀ e : Extension, r.AtMost r' e.id e.id)
    {k : Check ι} (hk : k.retires = false) (h : ∀ i ∈ k.ids, r.AtMost r' (f i) (g i))
    (loc : Location) (feature : String) :
    ((k.map g).run o' r' loc feature).errorCount ≤ ((k.map f).run o r loc feature).errorCount := by
  have hserved : ∀ id ∈ (k.map f).ids, r.refusal? id = none := by
    rw [ids_map, List.forall_mem_map]
    exact fun i hi => (h i hi).served.1
  have hserved' : ∀ id ∈ (k.map g).ids, r'.refusal? id = none := by
    rw [ids_map, List.forall_mem_map]
    exact fun i hi => (h i hi).served.2
  cases hgate : k.isGate with
  | true =>
    rw [errorCount_of_isGate ((isGate_map f k).trans hgate) hserved,
      errorCount_of_isGate ((isGate_map g k).trans hgate) hserved']
    exact Bool.toNat_le_toNat (raises_of_raises ho hk h)
  | false =>
    -- both run the same gates, which list extensions of the catalog
    have hsame : k.map g = k.map f := map_eq_of_scalar hgate
    have hscalar : (k.map f).isGate = false := (isGate_map f k).trans hgate
    rw [hsame] at hserved' ⊢
    rw [errorCount_run (fun e => (hcatalog e).served.1) hserved,
      errorCount_run (fun e => (hcatalog e).served.2) hserved']
    refine List.countP_mono_left fun part hpart hraises => ?_
    have hretires : (k.map f).retires = false := by
      rw [retires_map, hk]
    have hpartRaises := raises_of_raises (f := id) (g := id) ho
      (retires_of_mem_parts hretires hpart) (fun i hi => by
        obtain ⟨e, rfl⟩ := exists_eq_id_of_mem_parts hscalar hpart hi
        exact hcatalog e)
    rw [map_id] at hpartRaises
    exact hpartRaises hraises

/-- A check that `retires` a feature reports no fewer errors at a newer version. -/
theorem errorCount_le_of_retires {k : Check ι} (hk : k.retires = true)
    (hprofile : o'.profile = o.profile) (hversion : o.version ≤ o'.version)
    (hforward : o'.forwardCompatible = o.forwardCompatible) (loc : Location) (feature : String) :
    ((k.map f).run o r loc feature).errorCount ≤ ((k.map g).run o' r' loc feature).errorCount := by
  have hraises : (k.map f).raises o r = true → (k.map g).raises o' r' = true :=
    raises_of_retires hk hprofile hversion hforward
  have hgate : k.isGate = true ∧ k.ids = [] := by
    cases k with
    | deprecated | removed => exact ⟨rfl, rfl⟩
    | _ => exact absurd hk Bool.false_ne_true
  have hserved (q : ι → ExtensionId) (s : Registry) :
      ∀ id ∈ (k.map q).ids, s.refusal? id = none := by
    rw [ids_map, hgate.2]
    exact fun id hid => absurd hid List.not_mem_nil
  rw [errorCount_of_isGate ((isGate_map f k).trans hgate.1) (hserved f r),
    errorCount_of_isGate ((isGate_map g k).trans hgate.1) (hserved g r')]
  exact Bool.toNat_le_toNat hraises

end Check

/-! ## A checker -/

/-- A check that is asked for: where, for which feature, and which. -/
structure Request (ι : Type) where
  loc : Location
  feature : String
  check : Check ι

namespace Request

variable {ι κ : Type}

/-- The request with its references to extensions replaced. -/
def map (f : ι → κ) (q : Request ι) : Request κ := ⟨q.loc, q.feature, q.check.map f⟩

/-- How many errors the check of a `Request` reports. -/
def errorCount (o : Options) (r : Registry) (q : Request ExtensionId) : Nat :=
  (q.check.run o r q.loc q.feature).errorCount

end Request

namespace Checker

/-- The checker after some checks, one after another, as by `Checker.check`. -/
def checkAll (c : Checker) (requests : List (Request ExtensionId)) : Checker :=
  requests.foldl (fun c q => (c.check q.loc q.feature q.check).1) c

/-- A check changes the sink alone, and counts the errors that it reports. -/
theorem exists_sink_check (c : Checker) (q : Request ExtensionId) :
    ∃ sink, (c.check q.loc q.feature q.check).1 =
      { c with sink, errors := c.errors + q.errorCount c.options c.registry } :=
  ⟨_, c.receiveAll_checker _⟩

/-- If each check reports no more errors for the second checker than for the first, then no more are
added by all of them: no check changes what the next one reads. -/
theorem exists_errors_le {ι : Type} {f g : ι → ExtensionId} {c c' : Checker}
    {requests : List (Request ι)}
    (h : ∀ q ∈ requests, (q.map g).errorCount c'.options c'.registry ≤
      (q.map f).errorCount c.options c.registry) :
    ∃ n n', (c.checkAll (requests.map (Request.map f))).errors = c.errors + n ∧
      (c'.checkAll (requests.map (Request.map g))).errors = c'.errors + n' ∧ n' ≤ n := by
  induction requests generalizing c c' with
  | nil => exact ⟨0, 0, rfl, rfl, Nat.le_refl 0⟩
  | cons q rest ih =>
    obtain ⟨hq, hrest⟩ := List.forall_mem_cons.mp h
    obtain ⟨sink, hcheck⟩ := c.exists_sink_check (q.map f)
    obtain ⟨sink', hcheck'⟩ := c'.exists_sink_check (q.map g)
    obtain ⟨n, n', hn, hn', hle⟩ := @ih (c.check _ _ (q.map f).check).1
      (c'.check _ _ (q.map g).check).1 (by rw [hcheck, hcheck']; exact hrest)
    refine ⟨_, _, ?_, ?_, Nat.add_le_add hq hle⟩
    · rw [← Nat.add_assoc]
      exact hn.trans (congrArg (· + n) (congrArg Checker.errors hcheck))
    · rw [← Nat.add_assoc]
      exact hn'.trans (congrArg (· + n') (congrArg Checker.errors hcheck'))

/-- Two checkers have the same profile, and the second a version that is no older.

If they have the same stage, target and message switches as well, and the second registry serves the
extensions of the catalog and those that are asked for with no lower a rank (`Registry.AtMost`),
then any list of checks that retire nothing adds at most as many errors in the second as in the
first. If both are forward-compatible or neither is, any list of checks that retire features adds at
least as many. -/
theorem availability_monotone {ι : Type} {c c' : Checker} (f g : ι → ExtensionId)
    (hprofile : c'.options.profile = c.options.profile)
    (hversion : c.options.version ≤ c'.options.version) :
    (c'.options.stage = c.options.stage → c'.options.target = c.options.target →
      c'.options.messages = c.options.messages →
      (∀ e : Extension, c.registry.AtMost c'.registry e.id e.id) →
      ∀ requests : List (Request ι),
        (∀ q ∈ requests, q.check.retires = false ∧
          ∀ i ∈ q.check.ids, c.registry.AtMost c'.registry (f i) (g i)) →
        ∃ n n', (c.checkAll (requests.map (Request.map f))).errors = c.errors + n ∧
          (c'.checkAll (requests.map (Request.map g))).errors = c'.errors + n' ∧ n' ≤ n) ∧
    (c'.options.forwardCompatible = c.options.forwardCompatible →
      ∀ requests : List (Request ι), (∀ q ∈ requests, q.check.retires = true) →
        ∃ n n', (c.checkAll (requests.map (Request.map f))).errors = c.errors + n ∧
          (c'.checkAll (requests.map (Request.map g))).errors = c'.errors + n' ∧ n ≤ n') := by
  refine ⟨fun hstage htarget hmessages hcatalog requests h => ?_, fun hforward requests h => ?_⟩
  · have ho : c.options.NoNewer c'.options := ⟨hprofile, hversion, hstage, htarget, hmessages⟩
    refine exists_errors_le fun q hq => ?_
    obtain ⟨hk, hids⟩ := h q hq
    exact Check.errorCount_le ho hcatalog hk hids q.loc q.feature
  · have hretires : ∀ q ∈ requests, (q.map f).errorCount c.options c.registry ≤
        (q.map g).errorCount c'.options c'.registry := fun q hq =>
      Check.errorCount_le_of_retires (h q hq) hprofile hversion hforward q.loc q.feature
    obtain ⟨n', n, hn', hn, hle⟩ := exists_errors_le hretires
    exact ⟨n, n', hn, hn', hle⟩

/-- A name that both have listed has an identity of its own in each. Enabled, and at a newer
version, it spares errors, while what was deprecated in between adds some. -/
theorem availability_monotone_listed :
    ∃ c c' : Checker,
      (c'.checkAll [⟨.atLine 3, "texel_x", .extensions .parse [⟨79, 2⟩]⟩,
          ⟨.atLine 4, "int64_t", .int64 false⟩]).errors ≤
        (c.checkAll [⟨.atLine 3, "texel_x", .extensions .parse [⟨79, 1⟩]⟩,
          ⟨.atLine 4, "int64_t", .int64 false⟩]).errors ∧
      (c.checkAll [⟨.atLine 5, "varying", .deprecated (.only .core) 420⟩]).errors ≤
        (c'.checkAll [⟨.atLine 5, "varying", .deprecated (.only .core) 420⟩]).errors ∧
      c.options.version = 330 ∧ c.registry.name ⟨79, 1⟩ = .ok "GL_VENDOR_x" ∧
      c'.options.version = 450 ∧ c'.registry.name ⟨79, 2⟩ = .ok "GL_VENDOR_x" := by
  have hr : ((Registry.fresh 1).intern "GL_VENDOR_x").1.Sound :=
    (Registry.Change.intern _ _).evolves.sound (Registry.sound_fresh 1)
  have hr' : (Directive.apply {} "GL_VENDOR_x" "enable" (.fresh 2)).registry.Sound :=
    (Registry.evolves_directive _ _ _ _).sound (Registry.sound_fresh 2)
  have hname : ((Registry.fresh 1).intern "GL_VENDOR_x").1.name ⟨79, 1⟩ = .ok "GL_VENDOR_x" := by
    decide +kernel
  have hname' : (Directive.apply {} "GL_VENDOR_x" "enable" (.fresh 2)).registry.name ⟨79, 2⟩ =
      .ok "GL_VENDOR_x" := by decide +kernel
  -- in the first registry everything is missing
  have hrank {id id' : ExtensionId} {text : String}
      (hid : ((Registry.fresh 1).intern "GL_VENDOR_x").1.name id = .ok text)
      (hid' : (Directive.apply {} "GL_VENDOR_x" "enable" (.fresh 2)).registry.name id' = .ok text) :
      ((Registry.fresh 1).intern "GL_VENDOR_x").1.AtMost
        (Directive.apply {} "GL_VENDOR_x" "enable" (.fresh 2)).registry id id' := by
    refine .of_name hr.nodup hr'.nodup hid hid' ?_
    rw [Registry.recorded_intern Extension.names_nodup, Registry.recorded_fresh]
    exact Nat.zero_le _
  obtain ⟨hasks, hretires⟩ := @availability_monotone Unit
    { Checker.start { version := 330, profile := .core, forwardCompatible := true } 1 .tracing with
      registry := ((Registry.fresh 1).intern "GL_VENDOR_x").1 }
    { Checker.start { version := 450, profile := .core, forwardCompatible := true } 2 .tracing with
      registry := (Directive.apply {} "GL_VENDOR_x" "enable" (.fresh 2)).registry }
    (fun _ => ⟨79, 1⟩) (fun _ => ⟨79, 2⟩) rfl (by decide)
  obtain ⟨n, n', hn, hn', hle⟩ := hasks rfl rfl rfl
    (fun e => hrank (hr.name_id e) (hr'.name_id e))
    [⟨.atLine 3, "texel_x", .extensions .parse [()]⟩, ⟨.atLine 4, "int64_t", .int64 false⟩]
    (List.forall_mem_cons.mpr ⟨⟨rfl, fun _ _ => hrank hname hname'⟩,
      List.forall_mem_singleton.mpr ⟨rfl, fun _ hi => absurd hi List.not_mem_nil⟩⟩)
  obtain ⟨m, m', hm, hm', hge⟩ := hretires rfl
    [⟨.atLine 5, "varying", .deprecated (.only .core) 420⟩] (List.forall_mem_singleton.mpr rfl)
  refine ⟨_, _, Nat.le_trans (Nat.le_of_eq hn') (Nat.le_trans ?_ (Nat.le_of_eq hn.symm)),
    Nat.le_trans (Nat.le_of_eq hm) (Nat.le_trans ?_ (Nat.le_of_eq hm'.symm)),
    rfl, hname, rfl, hname'⟩
  · exact Nat.add_le_add_left hle 0
  · exact Nat.add_le_add_left hge 0

end Checker

end ShaderCompat
