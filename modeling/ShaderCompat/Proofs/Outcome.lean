import Mathlib.Data.List.Forall2
import ShaderCompat.Signal

/-!
# Composing outcomes

How signals and results of a computation follow from those of its parts. The result alone composes
as results do, whatever is given off on the way.
-/

namespace ShaderCompat

/-- What was found was not refused. -/
theorem ok_ne_error {α : Type} (a : α) (e : Refusal) : (.ok a : Except Refusal α) ≠ .error e := by
  simp

namespace Outcome

/-- What follows a result adds its signals to those before it. -/
theorem bind_of_ok {α β : Type} {x : Outcome α} {a : α} (h : x.result = .ok a)
    (f : α → Outcome β) : x >>= f = ⟨x.signals ++ (f a).signals, (f a).result⟩ := by
  rw [bind_def, bind, h]

/-- Nothing follows a refusal. -/
theorem bind_of_error {α β : Type} {x : Outcome α} {e : Refusal} (h : x.result = .error e)
    (f : α → Outcome β) : x >>= f = ⟨x.signals, .error e⟩ := by
  rw [bind_def, bind, h]

/-- The result of one computation after the other, signals aside. -/
theorem result_bind {α β : Type} (x : Outcome α) (f : α → Outcome β) :
    (x >>= f).result = x.result >>= fun a => (f a).result := by
  cases h : x.result with
  | error e =>
    rw [bind_of_error h]
    rfl
  | ok a =>
    rw [bind_of_ok h]
    rfl

/-- The results of computations in a row, signals aside. -/
theorem result_mapM {α β : Type} (f : α → Outcome β) (as : List α) :
    (as.mapM f).result = as.mapM fun a => (f a).result := by
  induction as with
  | nil => rfl
  | cons a as ih => simp only [List.mapM_cons, result_bind, ih, result_pure]; rfl

/-- Computations in a row, of which each is known by what it is about: what it gives off (`told`)
and what it finds (`found`). -/
theorem mapM_of_forall₂ {α β γ : Type} {f : α → Outcome γ} {told : β → List Signal} {found : β → γ}
    {as : List α} {bs : List β}
    (h : List.Forall₂ (fun a b => f a = ⟨told b, .ok (found b)⟩) as bs) :
    as.mapM f = ⟨bs.flatMap told, .ok (bs.map found)⟩ := by
  induction h with
  | nil => rfl
  | @cons a b as bs hab _ ih =>
    rw [List.mapM_cons, hab, ih, List.flatMap_cons]
    show Outcome.mk (told b ++ (bs.flatMap told ++ [])) _ = _
    rw [List.append_nil]
    rfl

/-- Computations in a row are the same if each of them is. -/
theorem mapM_congr {α β : Type} {f g : α → Outcome β} {as : List α} (h : ∀ a ∈ as, f a = g a) :
    as.mapM f = as.mapM g := by
  induction as with
  | nil => rfl
  | cons a as ih =>
    obtain ⟨hhead, htail⟩ := List.forall_mem_cons.mp h
    rw [List.mapM_cons, List.mapM_cons, hhead, ih htail]

end Outcome

/-- Lookups in a row succeed if each of them does. -/
theorem mapM_eq_ok_iff {α β : Type} {f : α → Except Refusal β} {as : List α} {bs : List β} :
    as.mapM f = .ok bs ↔ List.Forall₂ (fun a b => f a = .ok b) as bs := by
  induction as generalizing bs with
  | nil =>
    rw [List.forall₂_nil_left_iff]
    exact ⟨fun h => (Except.ok.inj h).symm, fun h => congrArg Except.ok h.symm⟩
  | cons a as ih =>
    rw [List.mapM_cons, List.forall₂_cons_left_iff]
    constructor
    · intro h
      -- the first lookup fails, or a later one, or none
      cases hb : f a with
      | error e =>
        rw [hb] at h
        exact absurd h.symm (ok_ne_error _ _)
      | ok b =>
        cases hrest : as.mapM f with
        | error e =>
          rw [hb, hrest] at h
          exact absurd h.symm (ok_ne_error _ _)
        | ok rest =>
          rw [hb, hrest] at h
          exact ⟨b, rest, rfl, ih.mp hrest, (Except.ok.inj h).symm⟩
    · rintro ⟨b, rest, hb, hrest, rfl⟩
      rw [hb, ih.mpr hrest]
      rfl

/-- Lookups in a row fail as the first of them that fails; `g` tells the failures. -/
theorem mapM_eq_error_iff {α β : Type} {f : α → Except Refusal β} {g : α → Option Refusal}
    (h : ∀ a e, f a = .error e ↔ g a = some e) {as : List α} {e : Refusal} :
    as.mapM f = .error e ↔ as.findSome? g = some e := by
  induction as with
  | nil => exact iff_of_false (ok_ne_error _ _) (Option.some_ne_none _).symm
  | cons a as ih =>
    rw [List.mapM_cons, List.findSome?_cons]
    cases hfa : f a with
    | error e' =>
      rw [(h a e').mp hfa]
      show Except.error e' = Except.error e ↔ some e' = some e
      rw [Except.error.injEq, Option.some.injEq]
    | ok b =>
      have hga : g a = none := Option.eq_none_iff_forall_ne_some.mpr fun e' he' =>
        absurd (hfa.symm.trans ((h a e').mpr he')) (ok_ne_error _ _)
      rw [hga]
      show (as.mapM f >>= fun bs => pure (b :: bs)) = .error e ↔ as.findSome? g = some e
      rw [← ih]
      cases as.mapM f with
      | error e' => exact Iff.rfl
      | ok bs => exact iff_of_false (ok_ne_error _ _) (ok_ne_error _ _)

end ShaderCompat
