/-!
# Documents

Options and diagnostics are read from documents. A `Document.Format` says how a document format
shows the values they are made of, so that what a record consists of is said once, whatever the
format: which fields it has, which of them may be left out, and what they may hold.
-/

namespace ShaderCompat.Document

/-- The fields that a record gives, by their names. `lookup` takes the first of a name. -/
abbrev Fields (ν : Type) := List (String × ν)

/-- How a document format shows values; `ν` is a value of the format. -/
structure Format (ν : Type) where
  /-- The fields that a record gives out of those listed, if the value is a record of them. -/
  record : List String → ν → Option (Fields ν)
  /-- A number that may have a sign, in the range of no word yet (`int32?`). -/
  signed : ν → Option Int
  /-- A number without a sign, in the range of no word yet (`uint32?`). -/
  unsigned : ν → Option Nat
  truth : ν → Option Bool
  /-- The label of a choice between alternatives. -/
  choice : ν → Option String

/-- The signed word of a number, if it is in the range of an `Int32`. -/
def int32? (n : Int) : Option Int32 :=
  if -0x80000000 ≤ n ∧ n < 0x80000000 then some (Int32.ofInt n) else none

/-- The unsigned word of a number, if it is in the range of a `UInt32`. -/
def uint32? (n : Nat) : Option UInt32 :=
  if n < 0x100000000 then some (UInt32.ofNat n) else none

/-- A value that is a `signed` number in the range of an `Int32`. -/
def Format.int32 {ν : Type} (f : Format ν) (v : ν) : Option Int32 := (f.signed v).bind int32?

/-- A value that is an `unsigned` number in the range of a `UInt32`. -/
def Format.uint32 {ν : Type} (f : Format ν) (v : ν) : Option UInt32 := (f.unsigned v).bind uint32?

namespace Fields

/-- The entries of a record under the texts of their keys, if `text?` gives one for all of them. -/
def named? {κ ν : Type} (text? : κ → Option String) (entries : List (κ × ν)) :
    Option (Fields ν) :=
  entries.mapM fun (key, v) => (text? key).map (·, v)

/-- The fields that a record gives out of those listed: there may be other entries as long as their
keys have texts, but none of `names` may be given twice. -/
def ofEntries? {κ ν : Type} (text? : κ → Option String) (names : List String)
    (entries : List (κ × ν)) : Option (Fields ν) := do
  let known := (← named? text? entries).filter fun entry => names.contains entry.1
  if (known.map Prod.fst).Nodup then some known else none

/-- A field that must be given, and which `read` must be able to read. -/
def required {ν α : Type} (fields : Fields ν) (name : String) (read : ν → Option α) : Option α :=
  (fields.lookup name).bind read

/-- A field that may be left out, and is `absent` then; if it is given, `read` must be able to read
it. -/
def optional {ν α : Type} (fields : Fields ν) (name : String) (read : ν → Option α) (absent : α) :
    Option α :=
  match fields.lookup name with
  | some v => read v
  | none => some absent

end Fields

/-- `int32?` reads a signed word back from its number. -/
theorem int32?_toInt (n : Int32) : int32? n.toInt = some n := by
  have h₁ := n.le_toInt
  have h₂ := n.toInt_lt
  simp only [int32?, Int32.ofInt_toInt]
  rw [if_pos (by omega)]

/-- `uint32?` reads an unsigned word back from its number. -/
theorem uint32?_toNat (n : UInt32) : uint32? n.toNat = some n := by
  have h := n.toNat_lt
  simp only [uint32?, UInt32.ofNat_toNat]
  rw [if_pos (by omega)]

end ShaderCompat.Document
