import ShaderCompat.Document
import ShaderCompat.Radix
import ShaderCompat.Yaml

/-!
# Records in YAML

A record is a mapping that names its fields, each at most once; it may have further pairs as long as
every key is a scalar. Where nothing is written there is a record without fields.

Only plain scalars stand for numbers and truth values. A number is decimal, or has a base of its own
in front; one with a needless zero in front is text. A choice is a scalar in any style.
-/

namespace ShaderCompat.Yaml

open Document

/-- The fields that a `mapping` gives out of those listed, by `Fields.ofEntries?`. -/
def fields? (names : List String) : Yaml → Option (Fields Yaml)
  | .mapping pairs => Fields.ofEntries? text? names pairs
  | .scalar true "" => some []
  | _ => none

/-- The truth value that a plain scalar stands for, in one of the cases `true`, `True` and `TRUE`.
-/
def truth? (text : String) : Option Bool :=
  if ["true", "True", "TRUE"].contains text then some true
  else if ["false", "False", "FALSE"].contains text then some false
  else none

/-- A decimal number without a sign; a needless zero in front, as in `01`, makes it text. -/
def decimal? : List Char → Option Nat
  | '0' :: _ :: _ => none
  | digits => Radix.number? 10 digits

/-- A number without a sign, with the base that `0x`, `0o` or `0b` tells. -/
def magnitude? (cs : List Char) : Option Nat :=
  match cs with
  | '0' :: 'x' :: digits => Radix.number? 16 digits
  | '0' :: 'o' :: digits => Radix.number? 8 digits
  | '0' :: 'b' :: digits => Radix.number? 2 digits
  | _ => decimal? cs

/-- The number that the characters of a plain scalar stand for, with `+` allowed in front. -/
def unsigned? : List Char → Option Nat
  | '+' :: cs => magnitude? cs
  | cs => magnitude? cs

/-- The number, possibly negative, that the characters of a plain scalar stand for, with `+` or `-`
allowed in front. -/
def signed? : List Char → Option Int
  | '-' :: cs => (magnitude? cs).map fun n => -(n : Int)
  | cs => (unsigned? cs).map Int.ofNat

/-- How YAML shows the values of a document. Numbers and truth values are plain scalars, as `plain?`
gives them. -/
def format : Format Yaml where
  record := fields?
  signed v := v.plain?.bind fun text => signed? text.toList
  unsigned v := v.plain?.bind fun text => unsigned? text.toList
  truth v := v.plain?.bind truth?
  choice := text?

end ShaderCompat.Yaml
