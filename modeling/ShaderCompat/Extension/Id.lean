import ShaderCompat.Extension.Catalog

/-!
# Extension identities

Checks name extensions by small identities. An identity of the catalog carries the owner tag zero
and is good in every registry; one that a registry gave out for a name read from source carries
that registry's own tag. An identity is only two words, so any pair of words can turn up, and
`Refusal` says how a registry turns down those that are not its own.
-/

namespace ShaderCompat

/-- The identity of an extension name: at which `index` it stands, and in the list of which `owner`.
-/
structure ExtensionId where
  index : UInt32
  owner : UInt32
deriving DecidableEq, Repr

namespace ExtensionId

/-- The tag of the catalog. Registries are given tags from one on. -/
def catalogOwner : UInt32 := 0

/-- The identity with a place of the catalog, which may lie past its end: an `index` can be any
word. -/
def inCatalog (index : UInt32) : ExtensionId := ⟨index, catalogOwner⟩

/-- Whether the identity claims to be of the catalog. Its `index` is not looked at. -/
def isCatalog (id : ExtensionId) : Bool := id.owner == catalogOwner

/-- The known extension behind an identity, if it `isCatalog` and its index is in range. -/
def known? (id : ExtensionId) : Option Extension :=
  if id.isCatalog then Extension.ofIndex? id.index.toNat else none

end ExtensionId

/-- The identity of a known extension: that of its `index`, with the catalog for owner. -/
def Extension.id (e : Extension) : ExtensionId := .inCatalog (UInt32.ofNat e.index)

/-- An identity and all that its directive reaches, as by `Extension.family`; only the catalog
implies anything. -/
def ExtensionId.family (id : ExtensionId) : List ExtensionId :=
  match id.known? with
  | some e => e.family.map Extension.id
  | none => [id]

/-- The identities an identity implies in one step, as by `Extension.implied`. -/
def ExtensionId.implied (id : ExtensionId) : List ExtensionId :=
  match id.known? with
  | some e => e.implied.map Extension.id
  | none => []

/-- Why a registry does not serve an identity, told in the order of `Registry.lookup`. -/
inductive Refusal where
  /-- Another registry gave it out; of the identity only the `index` is told. -/
  | foreign (index : UInt32)
  /-- It is the registry's own, but no name stands at its place. -/
  | outOfRange
deriving DecidableEq, Repr

/-- The text of a refusal, as a host reads it. -/
def Refusal.message : Refusal → String
  | .foreign index =>
    "extension id " ++ index.toNat.repr ++ " was interned by another behavior map"
  | .outOfRange => "extension id out of range"

end ShaderCompat
