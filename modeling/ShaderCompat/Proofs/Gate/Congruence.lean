import ShaderCompat.Proofs.Gate.Parts
import ShaderCompat.Proofs.Outcome
import ShaderCompat.Proofs.Reference

/-!
# What a check reads

Of the message switches a check reads the one for relaxed errors alone, and of a registry it reads
what the registry holds for the identities that the check lists, and for those of the catalog. The
identities themselves leave no trace: two registries that hold the same for their identities are the
same to a check (`Check.run_congr`) and to a question (`Query.answer_congr`).
-/

namespace ShaderCompat

/-- Options that say the same in all that a check reads. They may differ in the message switches,
but for `relaxedErrors`. -/
structure Options.SameRules (o o' : Options) : Prop where
  version : o'.version = o.version
  profile : o'.profile = o.profile
  stage : o'.stage = o.stage
  target : o'.target = o.target
  forwardCompatible : o'.forwardCompatible = o.forwardCompatible
  relaxedErrors : o'.messages.relaxedErrors = o.messages.relaxedErrors

theorem Options.SameRules.refl (o : Options) : o.SameRules o := ⟨rfl, rfl, rfl, rfl, rfl, rfl⟩

/-- The registry `r'` holds for `id'` what `r` holds for `id`: the same name and behavior, or the
same refusal. -/
structure Registry.SameAt (r r' : Registry) (id id' : ExtensionId) : Prop where
  name : r'.name id' = r.name id
  behavior : r'.behavior id' = r.behavior id

theorem Registry.SameAt.refl (r : Registry) (id : ExtensionId) : r.SameAt r id id := ⟨rfl, rfl⟩

variable {ι : Type} {o o' : Options} {r r' : Registry} {f g : ι → ExtensionId}

/-! ## Reading a list of extensions -/

namespace Registry

/-- `anyTurnedOn` reads the behaviors, up to the first that is turned on. -/
theorem anyTurnedOn_congr {is : List ι} (h : ∀ i ∈ is, r.SameAt r' (f i) (g i)) :
    r'.anyTurnedOn (is.map g) = r.anyTurnedOn (is.map f) := by
  induction is with
  | nil => rfl
  | cons i is ih =>
    obtain ⟨hi, his⟩ := List.forall_mem_cons.mp h
    rw [List.map_cons, List.map_cons, anyTurnedOn, anyTurnedOn, hi.behavior, ih his]

/-- `anyDeclared` reads the behaviors, up to the first that is declared. -/
theorem anyDeclared_congr {is : List ι} (h : ∀ i ∈ is, r.SameAt r' (f i) (g i)) :
    r'.anyDeclared (is.map g) = r.anyDeclared (is.map f) := by
  induction is with
  | nil => rfl
  | cons i is ih =>
    obtain ⟨hi, his⟩ := List.forall_mem_cons.mp h
    rw [List.map_cons, List.map_cons, anyDeclared, anyDeclared, hi.behavior, ih his]

end Registry

/-! ## Gates -/

namespace Gate

variable {loc : Location} {feature : String}

/-- How a mismatch is reported depends on `relaxedErrors` alone. -/
theorem mismatch_congr (ho : o.SameRules o') (reason extra : String) :
    mismatch o' loc reason feature extra = mismatch o loc reason feature extra := by
  rw [mismatch, mismatch, Options.mismatch, Options.mismatch, ho.relaxedErrors]

/-- What a version gate says of one extension depends on its name and behavior. -/
theorem consult_congr {id id' : ExtensionId} (h : r.SameAt r' id id') :
    consult r' loc feature id' = consult r loc feature id := by
  rw [consult, consult, h.behavior, h.name]

/-- What an extension gate says of one extension depends on its name and behavior, and on
`relaxedErrors`. -/
theorem tolerate_congr (ho : o.SameRules o') {id id' : ExtensionId} (h : r.SameAt r' id id')
    (channel : Channel) :
    tolerate o' r' channel loc feature id' = tolerate o r channel loc feature id := by
  rw [tolerate, tolerate, h.behavior, h.name, ho.relaxedErrors]

/-- The names of the listed extensions are the same. -/
theorem mapM_name_congr {is : List ι} (h : ∀ i ∈ is, r.SameAt r' (f i) (g i)) :
    ((is.map g).mapM fun id => (liftM (r'.name id) : Outcome String)) =
      (is.map f).mapM fun id => (liftM (r.name id) : Outcome String) := by
  rw [List.mapM_map, List.mapM_map]
  exact Outcome.mapM_congr fun i hi => congrArg liftM (h i hi).name

/-- `Gate.profile` reads no registry. -/
theorem profile_congr (ho : o.SameRules o') (profiles : ProfileSet) :
    profile o' loc profiles feature = profile o loc profiles feature := by
  simp only [profile, ho.profile, mismatch_congr ho]

/-- `Gate.version` goes through its list with `consult` alone. -/
theorem version_congr (ho : o.SameRules o') {is : List ι}
    (h : ∀ i ∈ is, r.SameAt r' (f i) (g i)) (profiles : ProfileSet) (minimum : Int32) :
    version o' r' loc profiles minimum (is.map g) feature =
      version o r loc profiles minimum (is.map f) feature := by
  have hseen : (is.map g).mapM (consult r' loc feature) =
      (is.map f).mapM (consult r loc feature) := by
    rw [List.mapM_map, List.mapM_map]
    exact Outcome.mapM_congr fun i hi => consult_congr (h i hi)
  simp only [version, ho.profile, ho.version, hseen, mapM_name_congr h, mismatch_congr ho]

/-- `Gate.extensions` goes through its list with `tolerate` alone. -/
theorem extensions_congr (ho : o.SameRules o') {is : List ι}
    (h : ∀ i ∈ is, r.SameAt r' (f i) (g i)) (channel : Channel) :
    extensions o' r' channel loc (is.map g) feature =
      extensions o r channel loc (is.map f) feature := by
  have htolerated : (is.map g).mapM (tolerate o' r' channel loc feature) =
      (is.map f).mapM (tolerate o r channel loc feature) := by
    rw [List.mapM_map, List.mapM_map]
    exact Outcome.mapM_congr fun i hi => tolerate_congr ho (h i hi) channel
  simp only [extensions, Registry.anyTurnedOn_congr h, htolerated, mapM_name_congr h]

end Gate

/-! ## Checks -/

namespace Check

/-- To replace the identities of a check does not make it another kind of check. -/
theorem isGate_map {κ : Type} (f : ι → κ) (k : Check ι) : (k.map f).isGate = k.isGate := by
  cases k <;> rfl

/-- A scalar check lists nothing, so there is nothing to replace in it. -/
theorem map_eq_of_scalar {k : Check ι} (hk : k.isGate = false) : k.map g = k.map f := by
  cases k with
  | fullInteger | double | int64 | int16 | float16 => rfl
  | _ => exact absurd hk (by simp [isGate])

/-- The gates of a scalar check list extensions of the catalog, if any. -/
theorem exists_ids_parts {k : Check ExtensionId} (hk : k.isGate = false) (feature : String) :
    ∃ es : List Extension, (k.parts feature).flatMap (fun part => part.1.ids) =
      es.map Extension.id := by
  cases k with
  | fullInteger => exact ⟨[], rfl⟩
  | double => exact ⟨[.arbGpuShaderFp64], rfl⟩
  | int64 builtIn =>
    cases builtIn with
    | true => exact ⟨[], rfl⟩
    | false => exact ⟨[.arbGpuShaderInt64], rfl⟩
  | int16 builtIn =>
    cases builtIn with
    | true => exact ⟨[], rfl⟩
    | false => exact ⟨[.amdGpuShaderInt16], rfl⟩
  | float16 builtIn =>
    cases builtIn with
    | true => exact ⟨[], rfl⟩
    | false => exact ⟨[.amdGpuShaderHalfFloat], rfl⟩
  | _ => exact absurd hk (by simp [isGate])

/-- So each identity in one of them is an `Extension.id`. -/
theorem exists_eq_id_of_mem_parts {k : Check ExtensionId} (hk : k.isGate = false)
    {feature : String} {part : Check ExtensionId × String} (hpart : part ∈ k.parts feature)
    {id : ExtensionId} (hid : id ∈ part.1.ids) : ∃ e : Extension, id = e.id := by
  obtain ⟨es, hes⟩ := exists_ids_parts hk feature
  have hmem : id ∈ es.map Extension.id := hes ▸ List.mem_flatMap.mpr ⟨part, hpart, hid⟩
  obtain ⟨e, -, he⟩ := List.mem_map.mp hmem
  exact ⟨e, he.symm⟩

/-- Gates in turn do the same if each of them does. -/
theorem inTurn_congr {loc : Location} {parts : List (Check ExtensionId × String)}
    (h : ∀ part ∈ parts, part.1.run o' r' loc part.2 = part.1.run o r loc part.2) :
    inTurn o' r' loc parts = inTurn o r loc parts := by
  induction parts with
  | nil => rfl
  | cons part rest ih =>
    obtain ⟨k, feature⟩ := part
    obtain ⟨hk, hrest⟩ := List.forall_mem_cons.mp h
    rw [inTurn, inTurn, ih hrest]
    exact congrArg (· >>= _) hk

/-- A single gate reads the options and the identities that it lists, and no others. -/
theorem run_congr_of_isGate (ho : o.SameRules o') {k : Check ι} (hk : k.isGate = true)
    (h : ∀ i ∈ k.ids, r.SameAt r' (f i) (g i)) (loc : Location) (feature : String) :
    (k.map g).run o' r' loc feature = (k.map f).run o r loc feature := by
  -- the first three go through a list or report by `mismatch`; the others read one field or two
  cases k with
  | profile profiles => exact Gate.profile_congr ho profiles
  | version profiles minimum ids => exact Gate.version_congr ho h profiles minimum
  | extensions channel ids => exact Gate.extensions_congr ho h channel
  | stage stages =>
    show Gate.stage o' loc stages feature = Gate.stage o loc stages feature
    simp only [Gate.stage, ho.stage]
  | deprecated profiles since =>
    show Gate.deprecated o' loc profiles since feature =
      Gate.deprecated o loc profiles since feature
    simp only [Gate.deprecated, ho.profile, ho.version, ho.forwardCompatible]
  | removed profiles since =>
    show Gate.removed o' loc profiles since feature = Gate.removed o loc profiles since feature
    simp only [Gate.removed, ho.profile, ho.version]
  | unimplemented => rfl
  | withoutSpirv =>
    show Gate.withoutSpirv o' loc feature = Gate.withoutSpirv o loc feature
    simp only [Gate.withoutSpirv, ho.target]
  | withoutVulkan =>
    show Gate.withoutVulkan o' loc feature = Gate.withoutVulkan o loc feature
    simp only [Gate.withoutVulkan, ho.target]
  | vulkanOnly =>
    show Gate.vulkanOnly o' loc feature = Gate.vulkanOnly o loc feature
    simp only [Gate.vulkanOnly, ho.target]
  | spirvOnly =>
    show Gate.spirvOnly o' loc feature = Gate.spirvOnly o loc feature
    simp only [Gate.spirvOnly, ho.target]
  | fullInteger | double | int64 | int16 | float16 => exact absurd hk Bool.false_ne_true

/-- A check gives off the same signals and ends in the same way, if the options say the same
(`SameRules`) and the registries hold the same for what it reads (`SameAt`). -/
theorem run_congr (ho : o.SameRules o') (hcatalog : ∀ e : Extension, r.SameAt r' e.id e.id)
    {k : Check ι} (h : ∀ i ∈ k.ids, r.SameAt r' (f i) (g i)) (loc : Location) (feature : String) :
    (k.map g).run o' r' loc feature = (k.map f).run o r loc feature := by
  cases hk : k.isGate with
  | true => exact run_congr_of_isGate ho hk h loc feature
  | false =>
    -- the gates a scalar check stands for read the catalog
    have hscalar : (k.map f).isGate = false := (isGate_map f k).trans hk
    rw [map_eq_of_scalar hk, run_eq_inTurn, run_eq_inTurn]
    refine inTurn_congr fun part hpart => ?_
    have hgate := run_congr_of_isGate (f := id) (g := id) ho (isGate_of_mem_parts hpart)
      (fun id hid => by
        obtain ⟨e, rfl⟩ := exists_eq_id_of_mem_parts hscalar hpart hid
        exact hcatalog e) loc part.2
    rwa [map_id] at hgate

/-- Of the message switches a check reads `relaxedErrors` alone. -/
theorem run_of_sameRules (ho : o.SameRules o') (r : Registry) (loc : Location) (feature : String)
    (k : Check ExtensionId) : k.run o' r loc feature = k.run o r loc feature := by
  have hrun := run_congr (f := id) (g := id) (k := k) ho (fun e => Registry.SameAt.refl r e.id)
    (fun id _ => Registry.SameAt.refl r id) loc feature
  rwa [map_id] at hrun

end Check

/-! ## Questions -/

namespace Query

/-- A question has the same answer, if the registries hold the same for what it is about. -/
theorem answer_congr (hnamed : ∀ text, r'.behaviorOf text = r.behaviorOf text) {q : Query ι}
    (h : ∀ i ∈ q.ids, r.SameAt r' (f i) (g i)) : (q.map g).answer r' = (q.map f).answer r := by
  cases q with
  | behavior i =>
    rw [map, map, answer, answer, (h i (List.mem_singleton_self i)).behavior]
  | behaviorOf text => rw [map, map, answer, answer, hnamed]
  | nameOf i => rw [map, map, answer, answer, (h i (List.mem_singleton_self i)).name]
  | turnedOn i => rw [map, map, answer, answer, (h i (List.mem_singleton_self i)).behavior]
  | anyTurnedOn ids => exact congrArg (Finding.truth <$> ·) (Registry.anyTurnedOn_congr h)
  | anyDeclared ids => exact congrArg (Finding.truth <$> ·) (Registry.anyDeclared_congr h)

end Query

end ShaderCompat
