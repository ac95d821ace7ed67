/-!
# Source locations

A location names a place in one of the source strings of a compilation, or in a named file.
-/

namespace ShaderCompat

/-- The decimal text of a signed word, with `-` in front of a negative one. -/
def decimal (n : Int32) : String := n.toInt.repr

/-- Where a diagnostic points in the source. The `column` is not shown by `render`. -/
structure Location where
  /-- The file name, when a `#line` directive or an include has set one. -/
  name : Option String := none
  /-- The index of the source string, shown in place of a `name`. -/
  string : Int32 := 0
  line : Int32 := 0
  column : Int32 := 0
deriving DecidableEq, Repr, Inhabited

namespace Location

/-- A line of the source string at index `0`. -/
def atLine (line : Int32) : Location := { line }

/-- The start of a source string: its line `1`. -/
def start (string : Int32) : Location := { string, line := 1 }

/-- The location as messages show it: the `name`, or else the index of the string, and the line. -/
def render (loc : Location) : String :=
  loc.name.getD (decimal loc.string) ++ ":" ++ decimal loc.line

end Location

end ShaderCompat
