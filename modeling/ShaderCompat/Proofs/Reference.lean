import Mathlib.Data.List.Forall2
import ShaderCompat.Check

/-!
# References in checks and questions

Checks and questions list extensions by whatever a host refers to them by. `map` replaces the
references and `resolve` looks them up; the two commute (`Check.resolve_map`,
`Query.resolve_map`), and what a resolved check lists is what its references stand for
(`Check.exists_of_mem_ids`).
-/

namespace ShaderCompat

variable {ι ι' κ κ' : Type}

/-! ## Lists -/

/-- Replacing what references stand for (`g`) commutes with replacing references. -/
theorem mapM_map_of_comm {f : ι → Option κ} {f' : ι → Option κ'} {g : κ → κ'} {is : List ι}
    (h : ∀ i ∈ is, f' i = (f i).map g) : is.mapM f' = (is.mapM f).map (List.map g) := by
  induction is with
  | nil => rfl
  | cons i is ih =>
    obtain ⟨hi, his⟩ := List.forall_mem_cons.mp h
    rw [List.mapM_cons, List.mapM_cons, hi, ih his]
    cases f i with
    | none => rfl
    | some k => cases is.mapM f <;> rfl

/-- If a list is resolved, so is every reference in it, in its place. -/
theorem forall₂_of_mapM {f : ι → Option κ} {is : List ι} {ks : List κ}
    (h : is.mapM f = some ks) : List.Forall₂ (fun i k => f i = some k) is ks := by
  induction is generalizing ks with
  | nil =>
    obtain rfl : [] = ks := Option.some.inj h
    exact List.Forall₂.nil
  | cons i is ih =>
    rw [List.mapM_cons] at h
    obtain ⟨k, hk, h⟩ := Option.bind_eq_some_iff.mp h
    obtain ⟨rest, hrest, h⟩ := Option.bind_eq_some_iff.mp h
    obtain rfl : k :: rest = ks := Option.some.inj h
    exact List.Forall₂.cons hk (ih hrest)

/-- A list of references is resolved to what they stand for. -/
theorem exists_of_mem_mapM {f : ι → Option κ} {is : List ι} {ks : List κ}
    (h : is.mapM f = some ks) {k : κ} (hk : k ∈ ks) : ∃ i ∈ is, f i = some k := by
  have hall := forall₂_of_mapM h
  clear h
  induction hall with
  | nil => exact absurd hk List.not_mem_nil
  | @cons i k' is ks hi _ ih =>
    rcases List.mem_cons.mp hk with rfl | hrest
    · exact ⟨i, List.mem_cons_self, hi⟩
    · obtain ⟨j, hj, hfj⟩ := ih hrest
      exact ⟨j, List.mem_cons_of_mem i hj, hfj⟩

/-! ## Checks -/

namespace Check

/-- The extensions that a check lists. Most checks list none. -/
def ids : Check ι → List ι
  | .version _ _ ids | .extensions _ ids => ids
  | _ => []

/-- The check with its references to extensions replaced. -/
def map (f : ι → κ) : Check ι → Check κ
  | .profile profiles => .profile profiles
  | .version profiles minimum ids => .version profiles minimum (ids.map f)
  | .stage stages => .stage stages
  | .deprecated profiles since => .deprecated profiles since
  | .removed profiles since => .removed profiles since
  | .unimplemented => .unimplemented
  | .withoutSpirv => .withoutSpirv
  | .withoutVulkan => .withoutVulkan
  | .vulkanOnly => .vulkanOnly
  | .spirvOnly => .spirvOnly
  | .extensions channel ids => .extensions channel (ids.map f)
  | .fullInteger => .fullInteger
  | .double => .double
  | .int64 builtIn => .int64 builtIn
  | .int16 builtIn => .int16 builtIn
  | .float16 builtIn => .float16 builtIn

/-- To replace every reference by itself changes nothing. -/
@[simp] theorem map_id (k : Check ι) : k.map id = k := by
  cases k with
  | version profiles minimum ids => exact congrArg (version profiles minimum) (List.map_id ids)
  | extensions channel ids => exact congrArg (extensions channel) (List.map_id ids)
  | _ => rfl

/-- The references that are replaced are those that the check lists. -/
theorem ids_map (f : ι → κ) (k : Check ι) : (k.map f).ids = k.ids.map f := by
  cases k <;> rfl

/-- To replace the references and look the new ones up (`f'`) is to look up the old ones and replace
what they stand for. -/
theorem resolve_map {f : ι → Option κ} {f' : ι' → Option κ'} {e : ι → ι'} {g : κ → κ'}
    {k : Check ι} (h : ∀ i ∈ k.ids, f' (e i) = (f i).map g) :
    (k.map e).resolve f' = (k.resolve f).map (map g) := by
  cases k with
  | version profiles minimum ids =>
    show ((ids.map e).mapM f').map _ = ((ids.mapM f).map _).map _
    rw [List.mapM_map, show ids.mapM (f' ∘ e) = _ from mapM_map_of_comm h]
    cases ids.mapM f <;> rfl
  | extensions channel ids =>
    show ((ids.map e).mapM f').map _ = ((ids.mapM f).map _).map _
    rw [List.mapM_map, show ids.mapM (f' ∘ e) = _ from mapM_map_of_comm h]
    cases ids.mapM f <;> rfl
  | _ => rfl

/-- A resolved check lists what the references of the check stand for. -/
theorem exists_of_mem_ids {f : ι → Option κ} {k : Check ι} {k' : Check κ}
    (h : k.resolve f = some k') {x : κ} (hx : x ∈ k'.ids) : ∃ i ∈ k.ids, f i = some x := by
  cases k with
  | version profiles minimum ids =>
    obtain ⟨xs, hxs, rfl⟩ := Option.map_eq_some_iff.mp h
    exact exists_of_mem_mapM hxs hx
  | extensions channel ids =>
    obtain ⟨xs, hxs, rfl⟩ := Option.map_eq_some_iff.mp h
    exact exists_of_mem_mapM hxs hx
  | _ =>
    rw [← Option.some.inj h] at hx
    exact absurd hx List.not_mem_nil

end Check

/-! ## Questions -/

namespace Query

/-- The extensions that a question refers to. -/
def ids : Query ι → List ι
  | .behavior id | .nameOf id | .turnedOn id => [id]
  | .behaviorOf _ => []
  | .anyTurnedOn ids | .anyDeclared ids => ids

/-- The question with its references to extensions replaced. -/
def map (f : ι → κ) : Query ι → Query κ
  | .behavior id => .behavior (f id)
  | .behaviorOf text => .behaviorOf text
  | .nameOf id => .nameOf (f id)
  | .turnedOn id => .turnedOn (f id)
  | .anyTurnedOn ids => .anyTurnedOn (ids.map f)
  | .anyDeclared ids => .anyDeclared (ids.map f)

/-- To replace every reference by itself changes nothing. -/
@[simp] theorem map_id (q : Query ι) : q.map id = q := by
  cases q with
  | anyTurnedOn ids => exact congrArg anyTurnedOn (List.map_id ids)
  | anyDeclared ids => exact congrArg anyDeclared (List.map_id ids)
  | _ => rfl

/-- The same as for checks: `map` and `resolve` commute. -/
theorem resolve_map {f : ι → Option κ} {f' : ι' → Option κ'} {e : ι → ι'} {g : κ → κ'}
    {q : Query ι} (h : ∀ i ∈ q.ids, f' (e i) = (f i).map g) :
    (q.map e).resolve f' = (q.resolve f).map (map g) := by
  cases q with
  | behavior i | nameOf i | turnedOn i =>
    simp only [map, resolve, h i (List.mem_singleton_self i)]
    cases f i <;> rfl
  | behaviorOf text => rfl
  | anyTurnedOn ids | anyDeclared ids =>
    show ((ids.map e).mapM f').map _ = ((ids.mapM f).map _).map _
    rw [List.mapM_map, show ids.mapM (f' ∘ e) = _ from mapM_map_of_comm h]
    cases ids.mapM f <;> rfl

/-- A resolved question refers to what the references of the question stand for. -/
theorem exists_of_mem_ids {f : ι → Option κ} {q : Query ι} {q' : Query κ}
    (h : q.resolve f = some q') {x : κ} (hx : x ∈ q'.ids) : ∃ i ∈ q.ids, f i = some x := by
  cases q with
  | behavior i | nameOf i | turnedOn i =>
    obtain ⟨y, hy, rfl⟩ := Option.map_eq_some_iff.mp h
    obtain rfl : x = y := List.mem_singleton.mp hx
    exact ⟨i, List.mem_singleton_self i, hy⟩
  | behaviorOf text =>
    rw [← Option.some.inj h] at hx
    exact absurd hx List.not_mem_nil
  | anyTurnedOn ids | anyDeclared ids =>
    obtain ⟨xs, hxs, rfl⟩ := Option.map_eq_some_iff.mp h
    exact exists_of_mem_mapM hxs hx

end Query

end ShaderCompat
