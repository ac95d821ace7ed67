import ShaderCompat.Extension.Behavior
import ShaderCompat.Extension.Id

/-!
# The extension registry

A registry lists extension names, those of the catalog first and then every name read from source in
the order of its first appearance, and keeps a table of behaviors in step with them. Names are only
ever added, so an identity that was given out keeps naming the same extension; `reset` forgets
behaviors alone.

A registry serves the identities of the catalog and its own, and refuses all others. Own identities
are recognised by the owner tag, and a place past the end of the tables is refused too.
-/

namespace ShaderCompat

/-- An extension name and what the shader has said of it. -/
structure Slot where
  name : String
  behavior : Behavior := .missing
deriving DecidableEq, Repr

/-- The extension names of a compilation, with their behaviors. The catalog comes first in a
registry that is `fresh`, and names are only ever added behind. -/
structure Registry where
  /-- The owner of the identities this registry gives out. -/
  tag : UInt32
  /-- The listed names. The place of a name is what its identity tells. -/
  names : List String
  /-- What the shader has said of each, in the order of `names`. -/
  behaviors : List Behavior
  /-- Every name has its behavior, so that one `lookup` serves both tables. -/
  aligned : behaviors.length = names.length
deriving DecidableEq, Repr

namespace Registry

/-- The registry that knows the catalog and nothing else, all of it `missing`. -/
def fresh (tag : UInt32) : Registry where
  tag
  names := Extension.all.map Extension.name
  behaviors := List.replicate Extension.all.length .missing
  aligned := by simp

/-- How many names are listed. It is a number without bound, unlike the `index` of an identity. -/
def size (r : Registry) : Nat := r.names.length

/-- The identity of a place in the list. The `index` is a word of 32 bits, and a place of the
catalog has the catalog for its `owner`. -/
def idAt (r : Registry) (place : Nat) : ExtensionId :=
  ⟨UInt32.ofNat place, if place < Extension.all.length then ExtensionId.catalogOwner else r.tag⟩

/-- Whether an identity is of the catalog or of this registry, going by its `owner` alone. -/
def owns (r : Registry) (id : ExtensionId) : Bool := id.isCatalog || id.owner == r.tag

/-! ## Looking up -/

/-- What a table of the registry holds for an identity, or why the identity is refused: `foreign` if
the registry does not own it, and then `outOfRange`. -/
def lookup {α : Type} (r : Registry) (table : List α) (id : ExtensionId) : Except Refusal α :=
  if r.owns id then
    match table[id.index.toNat]? with
    | some a => .ok a
    | none => .error .outOfRange
  else .error (.foreign id.index)

/-- The name behind an identity, by `lookup`. -/
def name (r : Registry) (id : ExtensionId) : Except Refusal String := r.lookup r.names id

/-- The behavior of an identity, by `lookup`. -/
def behavior (r : Registry) (id : ExtensionId) : Except Refusal Behavior := r.lookup r.behaviors id

/-- The name and the behavior of an identity, or the refusal of the name. -/
def slot (r : Registry) (id : ExtensionId) : Except Refusal Slot := do
  return ⟨← r.name id, ← r.behavior id⟩

/-- The identity of a name, by the first place in `names` that has it. -/
def find? (r : Registry) (text : String) : Option ExtensionId :=
  (r.names.idxOf? text).map r.idAt

/-- The behavior of a name; one that `find?` does not find is `missing`. -/
def behaviorOf (r : Registry) (text : String) : Except Refusal Behavior :=
  match r.find? text with
  | some id => r.behavior id
  | none => .ok .missing

/-- The declared extensions: the identity of each place whose behavior is not `missing`, with the
behavior. -/
def tracked (r : Registry) : List (ExtensionId × Behavior) :=
  r.behaviors.zipIdx.filterMap fun (behavior, place) =>
    if behavior.isDeclared then some (r.idAt place, behavior) else none

/-- The declared extensions as a host lists them: the number of each identity `tracked` gives, the
name behind the identity, and the behavior. -/
def listing (r : Registry) : Except Refusal (List (Nat × Slot)) :=
  r.tracked.mapM fun (id, behavior) => return (id.index.toNat, ⟨← r.name id, behavior⟩)

/-- Whether one of the listed extensions is on; reading stops at the first that is, so that a
refusal behind it does not show. -/
def anyTurnedOn (r : Registry) : List ExtensionId → Except Refusal Bool
  | [] => .ok false
  | id :: ids => do if (← r.behavior id).isTurnedOn then return true else r.anyTurnedOn ids

/-- Whether one of the listed extensions is declared; reading stops there, as in `anyTurnedOn`. -/
def anyDeclared (r : Registry) : List ExtensionId → Except Refusal Bool
  | [] => .ok false
  | id :: ids => do if (← r.behavior id).isDeclared then return true else r.anyDeclared ids

/-! ## Changing -/

/-- Forgets every behavior and keeps every name, with its identity. -/
def reset (r : Registry) : Registry :=
  { r with behaviors := List.replicate r.size .missing, aligned := by simp [size] }

/-- The identity of a name read from source, which is listed at the end if `find?` does not find it.
-/
def intern (r : Registry) (text : String) : Registry × ExtensionId :=
  match r.find? text with
  | some id => (r, id)
  | none =>
    ({ r with
        names := r.names ++ [text]
        behaviors := r.behaviors ++ [.missing]
        aligned := by simp [r.aligned] }, r.idAt r.size)

/-- Records a behavior at the place of `id`, or refuses the identity as `lookup` does. -/
def set (r : Registry) (id : ExtensionId) (b : Behavior) : Except Refusal Registry := do
  let _ ← r.behavior id
  return { r with
    behaviors := r.behaviors.set id.index.toNat b
    aligned := by simp [r.aligned] }

/-- Overwrites the behaviors of a table that are not `missing` with `b`, and counts them on the way.
-/
def overwrite (b : Behavior) : List Behavior → List Behavior × Nat
  | [] => ([], 0)
  | old :: rest =>
    let (rest, touched) := overwrite b rest
    if old.isDeclared then (b :: rest, touched + 1) else (old :: rest, touched)

/-- What `overwrite` makes of a table, and what it counts. -/
theorem overwrite_eq (b : Behavior) (table : List Behavior) :
    overwrite b table =
      (table.map fun old => if old.isDeclared then b else old,
        table.countP Behavior.isDeclared) := by
  induction table with
  | nil => rfl
  | cons old rest ih =>
    rw [overwrite, ih]
    cases hold : old.isDeclared <;> simp [hold]

/-- Records a behavior for every declared extension, and for no other: the table of `overwrite`. -/
def setDeclared (r : Registry) (b : Behavior) : Registry :=
  { r with
    behaviors := (overwrite b r.behaviors).1
    aligned := by simp [overwrite_eq, r.aligned] }

end Registry

end ShaderCompat
