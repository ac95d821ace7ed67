import ShaderCompat.Extension.Pool
import ShaderCompat.Proofs.Extension.Aliasing

/-!
# Registries that were made apart

A step of a pool changes the registry it names and no other; a new registry stands behind those that
are there. So each registry of a pool evolves on its own, and what it answers is what it would
answer if nothing had been asked of the others (`Pool.SameAt.run`).

Without copies the owner tags count the registries: the tag of a registry is one more than its place
(`Pool.Numbered`). As long as the count fits a word, the tags differ from each other and from that
of the catalog, and this is what makes an identity foreign to every registry but the one that gave
it out. `Pool.made_apart` puts the two together.
-/

namespace ShaderCompat

/-! ## What a step does -/

namespace PoolStep

/-- What a step makes of the registry it names, whatever becomes of the pool. -/
def apply (r : Registry) : PoolStep → Registry
  | .reset => r.reset
  | .setDeclared b => r.setDeclared b
  | .set id b =>
    match r.set id b with
    | .ok r' => r'
    | .error _ => r
  | .intern name => (r.intern name).1
  | _ => r

/-- The registries that a step adds, when the next new one takes the owner tag `tag`. -/
def made (r : Registry) (tag : UInt32) : PoolStep → List Registry
  | .create => [.fresh tag]
  | .copy => [r]
  | _ => []

/-- The owner tag for the next new registry, after a step: only `create` takes one. -/
def tagAfter (tag : UInt32) : PoolStep → UInt32
  | .create => tag + 1
  | _ => tag

/-- A step changes the registry that it names by a `Change`, or not at all. -/
theorem evolves_apply (r : Registry) (st : PoolStep) : r.Evolves (st.apply r) := by
  cases st with
  | reset => exact (Registry.Change.reset r).evolves
  | setDeclared b => exact (Registry.Change.setDeclared r b).evolves
  | set id b =>
    rw [apply]
    cases h : r.set id b with
    | error e => exact Registry.Evolves.refl r
    | ok r' => exact (Registry.Change.set h).evolves
  | intern name => exact (Registry.Change.intern r name).evolves
  | _ => exact Registry.Evolves.refl r

end PoolStep

namespace Pool

variable {p p' : Pool} {i j : Nat} {r : Registry}

/-- A step with no registry at `i` does nothing, and has no answer. -/
theorem step_of_none (h : p.registries[i]? = none) (st : PoolStep) :
    p.step i st = (p, { answer := none }) := by
  rw [step, h]

/-- A step is carried out on the registry at `i`, by `stepWith`. -/
theorem step_of_some (h : p.registries[i]? = some r) (st : PoolStep) :
    p.step i st = p.stepWith i r st := by
  rw [step, h]

/-- Putting a registry back where it stands changes nothing. -/
theorem set_registry_self (h : p.registries[i]? = some r) :
    p.registries.set i r = p.registries := by
  obtain ⟨hi, rfl⟩ := List.getElem?_eq_some_iff.mp h
  exact List.set_getElem_self hi

/-- A step changes the registry it names, and adds what it makes (`PoolStep.made`) behind the
others. -/
theorem step_eq (h : p.registries[i]? = some r) (st : PoolStep) :
    (p.step i st).1 =
      { registries := p.registries.set i (st.apply r) ++ st.made r p.nextTag
        nextTag := st.tagAfter p.nextTag } := by
  rw [step_of_some h]
  cases st with
  | set id b =>
    simp only [stepWith, PoolStep.apply, PoolStep.made, PoolStep.tagAfter, List.append_nil]
    cases r.set id b with
    | error e => rw [set_registry_self h]
    | ok r' => rfl
  | reset | setDeclared | intern =>
    simp only [stepWith, PoolStep.apply, PoolStep.made, PoolStep.tagAfter, List.append_nil]
  | _ =>
    simp [stepWith, PoolStep.apply, PoolStep.made, PoolStep.tagAfter, set_registry_self h]

/-- A registry that stands in the pool is changed by the steps that name it, as `PoolStep.apply`
says. -/
theorem getElem?_step (h : p.registries[j]? = some r) (i : Nat) (st : PoolStep) :
    (p.step i st).1.registries[j]? = some (if i = j then st.apply r else r) := by
  obtain ⟨hj, -⟩ := List.getElem?_eq_some_iff.mp h
  cases hi : p.registries[i]? with
  | none =>
    have hij : i ≠ j := by
      rintro rfl
      exact absurd (hi.symm.trans h) (by simp)
    rw [step_of_none hi, if_neg hij, h]
  | some ri =>
    rw [step_eq hi, List.getElem?_append_left (by simpa using hj)]
    by_cases hij : i = j
    · subst hij
      obtain rfl : ri = r := Option.some.inj (hi.symm.trans h)
      rw [List.getElem?_set_self hj, if_pos rfl]
    · rw [List.getElem?_set_ne hij, if_neg hij, h]

/-- A registry after a step stood in the pool before, or the step, a `create` or a `copy`, has made
it. -/
theorem exists_registry_before {r' : Registry} {st : PoolStep}
    (h : (p.step i st).1.registries[j]? = some r') :
    (∃ r, p.registries[j]? = some r ∧ r.Evolves r') ∨
      j = p.registries.length ∧ ∃ r, p.registries[i]? = some r ∧ st.made r p.nextTag = [r'] := by
  -- a place that was taken keeps its registry, and the one place behind them all can come to have
  -- one
  cases hj : p.registries[j]? with
  | some r =>
    rw [getElem?_step hj, Option.some.injEq] at h
    refine Or.inl ⟨r, rfl, ?_⟩
    rw [← h]
    split
    · exact PoolStep.evolves_apply r st
    · exact Registry.Evolves.refl r
  | none =>
    cases hi : p.registries[i]? with
    | none =>
      rw [step_of_none hi, hj] at h
      exact absurd h (by simp)
    | some r =>
      have hlen : p.registries.length ≤ j := List.getElem?_eq_none_iff.mp hj
      rw [step_eq hi, List.getElem?_append_right (by simpa using hlen), List.length_set] at h
      -- no step makes more than one registry
      have hmade : j - p.registries.length = 0 ∧ st.made r p.nextTag = [r'] := by
        cases st <;> simp_all [PoolStep.made, List.getElem?_singleton]
      exact Or.inr ⟨by omega, r, rfl, hmade.2⟩

/-- No registry is ever taken out of a pool: `registries` grows at its end. -/
theorem length_le_step (p : Pool) (i : Nat) (st : PoolStep) :
    p.registries.length ≤ (p.step i st).1.registries.length := by
  cases h : p.registries[i]? with
  | none => simp [step_of_none h]
  | some r => simp [step_eq h]

/-! ## Runs -/

/-- A run may be cut in two: the second half goes on where the first has ended. -/
theorem run_append (p : Pool) (steps more : List (Nat × PoolStep)) :
    (p.run (steps ++ more)).1 = ((p.run steps).1.run more).1 := by
  induction steps generalizing p with
  | nil => rfl
  | cons s steps ih => exact ih _

/-- A pool has as many registries after a run as before, or more. -/
theorem length_le_run (p : Pool) (steps : List (Nat × PoolStep)) :
    p.registries.length ≤ (p.run steps).1.registries.length := by
  induction steps generalizing p with
  | nil => exact Nat.le_refl _
  | cons s steps ih => exact Nat.le_trans (p.length_le_step s.1 s.2) (ih _)

/-- A registry `Evolves` where it stands. -/
theorem evolves_run (h : p.registries[j]? = some r) (steps : List (Nat × PoolStep)) :
    ∃ r', (p.run steps).1.registries[j]? = some r' ∧ r.Evolves r' := by
  induction steps generalizing p r with
  | nil => exact ⟨r, h, Registry.Evolves.refl r⟩
  | cons s steps ih =>
    obtain ⟨r', hr', hevolves⟩ := ih (getElem?_step h s.1 s.2)
    refine ⟨r', hr', Registry.Evolves.trans ?_ hevolves⟩
    split
    · exact PoolStep.evolves_apply r s.2
    · exact Registry.Evolves.refl r

/-! ## Registries side by side do not show -/

/-- Two pools of the same size, with the same registry at the place `j`. -/
structure SameAt (p p' : Pool) (j : Nat) : Prop where
  length : p'.registries.length = p.registries.length
  nextTag : p'.nextTag = p.nextTag
  registry : p'.registries[j]? = p.registries[j]?

/-- A pool is the same as itself, at any place. -/
theorem SameAt.refl (p : Pool) (j : Nat) : p.SameAt p j := ⟨rfl, rfl, rfl⟩

/-- Where a pool is the `SameAt` a place as another, the same places are taken in both. -/
theorem SameAt.getElem?_eq_none_iff (h : p.SameAt p' j) (i : Nat) :
    p'.registries[i]? = none ↔ p.registries[i]? = none := by
  simp [h.length]

/-- A step with the registry that is the same has the same reply, and leaves the pools `SameAt` its
place. -/
theorem SameAt.step_self (h : p.SameAt p' j) (st : PoolStep) :
    (p.step j st).1.SameAt (p'.step j st).1 j ∧ (p'.step j st).2 = (p.step j st).2 := by
  cases hj : p.registries[j]? with
  | none =>
    rw [step_of_none hj, step_of_none (h.registry.trans hj)]
    exact ⟨h, rfl⟩
  | some r =>
    have hj' : p'.registries[j]? = some r := h.registry.trans hj
    refine ⟨⟨?_, ?_, ?_⟩, ?_⟩
    · simp [step_eq hj, step_eq hj', h.length, h.nextTag]
    · simp [step_eq hj, step_eq hj', h.nextTag]
    · rw [getElem?_step hj, getElem?_step hj']
    · rw [step_of_some hj, step_of_some hj']
      cases st with
      | create | copy => simp [stepWith, h.length]
      | set id b =>
        simp only [stepWith]
        cases r.set id b <;> rfl
      | _ => rfl

/-- A `create`, wherever it is asked for, is the same in both pools. -/
theorem SameAt.step_create (h : p.SameAt p' j) (i : Nat) :
    (p.step i .create).1.SameAt (p'.step i .create).1 j := by
  cases hi : p.registries[i]? with
  | none =>
    rw [step_of_none hi, step_of_none ((h.getElem?_eq_none_iff i).mpr hi)]
    exact h
  | some r =>
    obtain ⟨r', hi'⟩ : ∃ r', p'.registries[i]? = some r' := by
      rw [← Option.ne_none_iff_exists', ne_eq, h.getElem?_eq_none_iff, hi]
      simp
    rw [step_of_some hi, step_of_some hi']
    refine ⟨?_, ?_, ?_⟩
    · simp [stepWith, h.length]
    · simp [stepWith, h.nextTag]
    · simp only [stepWith, List.getElem?_append, h.length, h.nextTag, h.registry]

/-- A step with another registry, which makes none, leaves a pool `SameAt` the place. -/
theorem SameAt.step_other (h : p.SameAt p' j) (hij : i ≠ j) {st : PoolStep}
    (hcreate : st ≠ .create) (hcopy : st ≠ .copy) : (p.step i st).1.SameAt p' j := by
  cases hi : p.registries[i]? with
  | none =>
    rw [step_of_none hi]
    exact h
  | some r =>
    have hmade : st.made r p.nextTag = [] ∧ st.tagAfter p.nextTag = p.nextTag := by
      cases st <;> simp_all [PoolStep.made, PoolStep.tagAfter]
    rw [step_eq hi, hmade.1, hmade.2, List.append_nil]
    exact ⟨by simp [h.length], h.nextTag, by rw [List.getElem?_set_ne hij, h.registry]⟩

/-- The replies to the steps that name the place `j`, in order. -/
def repliesTo (p : Pool) (j : Nat) : List (Nat × PoolStep) → List PoolReply
  | [] => []
  | (i, st) :: rest =>
    if i = j then (p.step i st).2 :: (p.step i st).1.repliesTo j rest
    else (p.step i st).1.repliesTo j rest

/-- The steps that name `j`, and those that make a new registry, which take a tag. -/
def concerning (j : Nat) (steps : List (Nat × PoolStep)) : List (Nat × PoolStep) :=
  steps.filter fun s => s.1 = j ∨ s.2 = .create

/-- Leaving out all steps but those that are `concerning` a registry does not show in it and in its
replies. -/
theorem SameAt.run (h : p.SameAt p' j) {steps : List (Nat × PoolStep)}
    (hcopies : ∀ s ∈ steps, s.2 ≠ .copy) :
    (p.run steps).1.SameAt (p'.run (concerning j steps)).1 j ∧
      p'.repliesTo j (concerning j steps) = p.repliesTo j steps := by
  induction steps generalizing p p' with
  | nil => exact ⟨h, rfl⟩
  | cons s steps ih =>
    obtain ⟨i, st⟩ := s
    obtain ⟨hcopy, hrest⟩ := List.forall_mem_cons.mp hcopies
    -- a step is kept if it names the place or makes a registry, and left out of the second run
    -- otherwise
    by_cases hij : i = j
    · subst hij
      obtain ⟨hstep, hreply⟩ := h.step_self st
      obtain ⟨hrun, hreplies⟩ := ih hstep hrest
      rw [concerning, List.filter_cons_of_pos (by simp)]
      refine ⟨hrun, ?_⟩
      rw [repliesTo, repliesTo, if_pos rfl, if_pos rfl, hreply]
      exact congrArg _ hreplies
    · by_cases hcreate : st = .create
      · subst hcreate
        obtain ⟨hrun, hreplies⟩ := ih (h.step_create i) hrest
        rw [concerning, List.filter_cons_of_pos (by simp)]
        refine ⟨hrun, ?_⟩
        rw [repliesTo, repliesTo, if_neg hij, if_neg hij]
        exact hreplies
      · obtain ⟨hrun, hreplies⟩ := ih (h.step_other hij hcreate hcopy) hrest
        rw [concerning, List.filter_cons_of_neg (by simp [hij, hcreate])]
        refine ⟨hrun, ?_⟩
        rw [repliesTo, if_neg hij]
        exact hreplies

/-! ## Owner tags -/

/-- Each registry comes from a `fresh` one whose tag is one more than its place. -/
structure Numbered (p : Pool) : Prop where
  nextTag : p.nextTag = UInt32.ofNat (p.registries.length + 1)
  evolves : ∀ {i r}, p.registries[i]? = some r →
    (Registry.fresh (UInt32.ofNat (i + 1))).Evolves r

/-- A pool starts with one registry, whose tag is `1`. -/
theorem numbered_start : start.Numbered := by
  refine ⟨rfl, fun {i r} h => ?_⟩
  have hi : i = 0 := by
    obtain ⟨hlt, -⟩ := List.getElem?_eq_some_iff.mp h
    simpa [start] using hlt
  subst hi
  obtain rfl : Registry.fresh 1 = r := Option.some.inj h
  exact Registry.Evolves.refl _

/-- A step other than `copy` keeps the numbering: a new registry takes the next tag. -/
theorem Numbered.step (hp : p.Numbered) (i : Nat) {st : PoolStep} (hcopy : st ≠ .copy) :
    (p.step i st).1.Numbered := by
  constructor
  · cases h : p.registries[i]? with
    | none =>
      rw [step_of_none h]
      exact hp.nextTag
    | some r =>
      rw [step_eq h]
      cases st with
      | create => simp [PoolStep.made, PoolStep.tagAfter, hp.nextTag, UInt32.ofNat_add]
      | copy => exact absurd rfl hcopy
      | _ => simp [PoolStep.made, PoolStep.tagAfter, hp.nextTag]
  · intro j r' h
    rcases exists_registry_before h with ⟨r, hr, hevolves⟩ | ⟨rfl, r, -, hmade⟩
    · exact (hp.evolves hr).trans hevolves
    · cases st with
      | create =>
        obtain rfl : Registry.fresh p.nextTag = r' := List.singleton_inj.mp hmade
        rw [hp.nextTag]
      | copy => exact absurd rfl hcopy
      | _ => exact absurd hmade (List.cons_ne_nil _ _).symm

/-- So does a whole run without a `copy`. -/
theorem Numbered.run (hp : p.Numbered) {steps : List (Nat × PoolStep)}
    (hcopies : ∀ s ∈ steps, s.2 ≠ .copy) : (p.run steps).1.Numbered := by
  induction steps generalizing p with
  | nil => exact hp
  | cons s steps ih =>
    obtain ⟨hcopy, hrest⟩ := List.forall_mem_cons.mp hcopies
    exact ih (hp.step s.1 hcopy) hrest

/-- The tag of the registry at `i` is `i + 1`, as a word. -/
theorem Numbered.tag_eq (hp : p.Numbered) (h : p.registries[i]? = some r) :
    r.tag = UInt32.ofNat (i + 1) := (hp.evolves h).tag_eq

/-- The registries of such a pool are `Sound`. -/
theorem Numbered.sound (hp : p.Numbered) (h : p.registries[i]? = some r) : r.Sound :=
  (hp.evolves h).sound (Registry.sound_fresh _)

/-- The tag of a place, as a number: it is neither cut off nor that of the catalog. -/
theorem toNat_ofNat_succ {n : Nat} (h : n < 2 ^ 32 - 1) :
    (UInt32.ofNat (n + 1)).toNat = n + 1 := by
  rw [UInt32.toNat_ofNat', Nat.mod_eq_of_lt (by omega)]

end Pool

/-! ## Identities given out -/

namespace Registry

variable {r : Registry} {id : ExtensionId} {text : String}

/-- Beyond the catalog the `owner` of an identity is the tag of the registry that gives it out. -/
theorem owner_idAt {place : Nat} (h : ¬place < Extension.all.length) :
    (r.idAt place).owner = r.tag := by
  rw [idAt, if_neg h]

/-- A text that `Extension.ofName?` does not know stands behind the catalog. -/
theorem Sound.not_lt_catalog (hr : r.Sound) {place : Nat} (h : r.names[place]? = some text)
    (htext : ∀ e : Extension, e.name ≠ text) : ¬place < Extension.all.length := by
  rw [hr.lt_catalog_iff h]
  rintro ⟨e, he⟩
  exact htext e he

/-- An identity with the tag of another registry is `foreign`. -/
theorem refusal?_of_owner_ne (hcatalog : id.owner ≠ ExtensionId.catalogOwner)
    (htag : id.owner ≠ r.tag) : r.owns id = false ∧ r.refusal? id = some (.foreign id.index) := by
  have howns : r.owns id = false := by
    simp [owns, ExtensionId.isCatalog, hcatalog, htag]
  refine ⟨howns, ?_⟩
  rw [refusal?, howns]
  rfl

end Registry

namespace Pool

variable {p : Pool} {i j : Nat} {r : Registry} {text : String} {id : ExtensionId}

/-- The registry at the place `i` answers with an identity for a text, listing the text or finding
it. -/
def Gives (p : Pool) (i : Nat) (text : String) (id : ExtensionId) : Prop :=
  (p.step i (.intern text)).2.answer = some (.ok (.identity (some id))) ∨
    (p.step i (.find text)).2.answer = some (.ok (.identity (some id)))

/-- An identity that a pool `Gives` was given out by the registry at the place. -/
theorem Gives.exists_registry (h : p.Gives i text id) :
    ∃ r, p.registries[i]? = some r ∧ ((r.intern text).2 = id ∨ r.find? text = some id) := by
  cases hi : p.registries[i]? with
  | none => simp [Gives, step_of_none hi] at h
  | some r =>
    refine ⟨r, rfl, ?_⟩
    simpa [Gives, step_of_some hi, stepWith] using h

/-- An identity given out for a text that the catalog does not have bears the `tag` of its registry.
-/
theorem Numbered.owner_of_gives (hp : p.Numbered) (h : p.Gives i text id)
    (htext : ∀ e : Extension, e.name ≠ text) : id.owner = UInt32.ofNat (i + 1) := by
  obtain ⟨r, hr, hid⟩ := h.exists_registry
  have hsound : r.Sound := hp.sound hr
  rw [← hp.tag_eq hr]
  rcases hid with rfl | hfind
  · obtain ⟨place, hplace, hid⟩ := r.exists_place_intern text
    have hsound' : (r.intern text).1.Sound :=
      (Registry.Change.intern r text).evolves.sound hsound
    rw [hid, Registry.owner_idAt (hsound'.not_lt_catalog hplace htext)]
  · obtain ⟨place, hplace, rfl⟩ := Registry.exists_place_of_find? hfind
    rw [Registry.owner_idAt (hsound.not_lt_catalog hplace htext)]

/-- Two pools at different moments: what a registry of the one gives out for such a text, no
registry at another place of the other owns. -/
theorem Numbered.refuses {q : Pool} (hp : p.Numbered) (hq : q.Numbered) (h : p.Gives i text id)
    (htext : ∀ e : Extension, e.name ≠ text) (hr : q.registries[j]? = some r) (hji : j ≠ i)
    (hi : i < 2 ^ 32 - 1) (hj : j < 2 ^ 32 - 1) :
    r.owns id = false ∧ r.refusal? id = some (.foreign id.index) := by
  have howner : id.owner.toNat = i + 1 := by
    rw [hp.owner_of_gives h htext, toNat_ofNat_succ hi]
  have htag : r.tag.toNat = j + 1 := by
    rw [hq.tag_eq hr, toNat_ofNat_succ hj]
  refine Registry.refusal?_of_owner_ne ?_ ?_
  · intro hcatalog
    rw [hcatalog] at howner
    exact absurd howner (Nat.succ_ne_zero i).symm
  · intro hsame
    rw [hsame] at howner
    omega

/-- In a run without copies, and while the registries are fewer than the tags, an identity that one
registry gives out for a text outside the catalog is at no moment owned by another: it has no name
and no behavior there, and an attempt to set it is refused and changes nothing. The identities of
the catalog are good everywhere, name the same extension, and can be set. What is done with the
other registries shows neither in a registry nor in its replies. -/
theorem made_apart {steps : List (Nat × PoolStep)} (hcopies : ∀ s ∈ steps, s.2 ≠ .copy)
    (hcount : (start.run steps).1.registries.length < 2 ^ 32 - 1) :
    (∀ before moment, before <+: steps → moment <+: steps →
      ∀ (i : Nat) (text : String) (id : ExtensionId),
      (start.run before).1.Gives i text id → (∀ e : Extension, e.name ≠ text) →
      ∀ (j : Nat) (r : Registry), j ≠ i → (start.run moment).1.registries[j]? = some r →
        r.owns id = false ∧ r.name id = .error (.foreign id.index) ∧
        r.behavior id = .error (.foreign id.index) ∧
        ∀ b, (start.run moment).1.step j (.set id b) =
          ((start.run moment).1, { answer := some (.error (.foreign id.index)) })) ∧
    (∀ moment, moment <+: steps →
      ∀ (j : Nat) (r : Registry), (start.run moment).1.registries[j]? = some r →
      ∀ e : Extension, r.owns e.id = true ∧ r.name e.id = .ok e.name ∧
        (∃ b, r.behavior e.id = .ok b) ∧
        ∀ b, ∃ r', r.set e.id b = .ok r' ∧ r'.behavior e.id = .ok b) ∧
    ∀ j, (start.run (concerning j steps)).1.registries[j]? =
        (start.run steps).1.registries[j]? ∧
      start.repliesTo j (concerning j steps) = start.repliesTo j steps := by
  -- what holds of a run holds of every part of it from the start
  have hnumbered {part : List (Nat × PoolStep)} (h : part <+: steps) :
      (start.run part).1.Numbered :=
    numbered_start.run fun s hs => hcopies s (h.subset hs)
  have hlength {part : List (Nat × PoolStep)} (h : part <+: steps) {i : Nat} {r : Registry}
      (hr : (start.run part).1.registries[i]? = some r) : i < 2 ^ 32 - 1 := by
    obtain ⟨rest, rfl⟩ := h
    rw [run_append] at hcount
    have hi : i < (start.run part).1.registries.length := (List.getElem?_eq_some_iff.mp hr).1
    have hle := length_le_run (start.run part).1 rest
    omega
  refine ⟨fun before moment hbefore hmoment i text id hgives htext j r hji hr => ?_,
    fun moment hmoment j r hr e => ?_, fun j => ?_⟩
  · -- a foreign identity: no name, no behavior, and `set` changes nothing
    obtain ⟨ri, hri, -⟩ := hgives.exists_registry
    obtain ⟨howns, hrefused⟩ := (hnumbered hbefore).refuses (hnumbered hmoment) hgives htext hr hji
      (hlength hbefore hri) (hlength hmoment hr)
    refine ⟨howns, Registry.name_eq_error_iff.mpr hrefused,
      Registry.behavior_eq_error_iff.mpr hrefused, fun b => ?_⟩
    rw [step_of_some hr, stepWith, Registry.set_eq_error_iff.mpr hrefused]
  · -- an identity of the catalog: good in every registry
    have hname : r.name e.id = .ok e.name := ((hnumbered hmoment).sound hr).name_id e
    have howns : r.owns e.id = true := (Registry.lookup_eq_ok_iff.mp hname).1
    obtain ⟨s, -, hbehavior⟩ := Registry.exists_slot_of_served
      (((hnumbered hmoment).sound hr).refusal?_id e)
    exact ⟨howns, hname, ⟨_, hbehavior⟩, Registry.exists_set_of_name hname⟩
  · obtain ⟨hsame, hreplies⟩ := (SameAt.refl start j).run hcopies
    exact ⟨hsame.registry, hreplies⟩

/-- Two registries that list the same text refuse each other's identity for it, also after one of
them has forgotten its behaviors. -/
theorem made_apart_same_text :
    ∃ p r, p = (start.run [(0, .create), (0, .intern "GL_VENDOR_x"), (1, .intern "GL_VENDOR_x"),
        (1, .reset)]).1 ∧
      p.registries[1]? = some r ∧ r.find? "GL_VENDOR_x" = some ⟨79, 2⟩ ∧
      r.name ⟨79, 1⟩ = .error (.foreign 79) ∧
      p.step 1 (.set ⟨79, 1⟩ .require) = (p, { answer := some (.error (.foreign 79)) }) := by
  obtain ⟨happart, -, -⟩ := @made_apart [(0, .create), (0, .intern "GL_VENDOR_x"),
    (1, .intern "GL_VENDOR_x"), (1, .reset)] (by decide) (by decide)
  obtain ⟨-, hname, -, hset⟩ := happart [(0, .create)] _ (by decide) List.prefix_rfl 0
    "GL_VENDOR_x" ⟨79, 1⟩ (Or.inl (by decide +kernel))
    (Extension.ofName?_eq_none_iff.mp (by decide +kernel)) 1
    ((Registry.fresh 2).intern "GL_VENDOR_x").1.reset (by decide) rfl
  exact ⟨_, _, rfl, rfl, by decide +kernel, hname, hset .require⟩

end Pool

end ShaderCompat
