/-!
# YAML values

The tree of a YAML document: scalars, sequences and mappings. A scalar keeps its text and whether it
was written plainly, for only plain scalars can stand for numbers and truth values. What is left out
in a document, such as the value of a key with nothing after it, is the plain empty scalar.
-/

namespace ShaderCompat

/-- A YAML value. A scalar keeps whether it is plain, for only such stand for numbers and truth
values. -/
inductive Yaml where
  | scalar (plain : Bool) (text : String)
  | sequence (items : List Yaml)
  | mapping (pairs : List (Yaml × Yaml))
deriving Repr

namespace Yaml

/-- What stands where nothing is written: a plain scalar without text. -/
def empty : Yaml := .scalar true ""

/-- The text of a `scalar`, however it is written. -/
def text? : Yaml → Option String
  | .scalar _ text => some text
  | _ => none

/-- The text of a `scalar` that is plain. -/
def plain? : Yaml → Option String
  | .scalar true text => some text
  | _ => none

end Yaml

end ShaderCompat
