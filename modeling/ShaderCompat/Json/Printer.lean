import ShaderCompat.Json

/-!
# Writing JSON

`Json.render` writes a value without blanks. A string keeps its characters as they are, except for
the quote, the backslash and the control characters, which are escaped.
-/

namespace ShaderCompat.Json

/-- A hexadecimal digit, in lower case, of `n % 16`. -/
def hexDigit (n : Nat) : Char := Nat.digitChar (n % 16)

/-- An escape of four digits, as `\u001f`. -/
def unitEscape (unit : Nat) : List Char :=
  ['\\', 'u', hexDigit (unit / 0x1000), hexDigit (unit / 0x100), hexDigit (unit / 0x10),
    hexDigit unit]

/-- A character as it stands in a string: a quote, a backslash and control characters are escaped,
the latter by a letter if they have one. -/
def escape (c : Char) : List Char :=
  match c with
  | '"' => ['\\', '"']
  | '\\' => ['\\', '\\']
  | '\x08' => ['\\', 'b']
  | '\x0c' => ['\\', 'f']
  | '\n' => ['\\', 'n']
  | '\r' => ['\\', 'r']
  | '\t' => ['\\', 't']
  | c => if c < ' ' then unitEscape c.toNat else [c]

/-- A piece as it stands in a string; a `half` is escaped. -/
def Piece.render : Piece → List Char
  | .char c => escape c
  | .half unit => unitEscape unit

/-- A string with its quotes, each piece as `Piece.render` has it. -/
def renderString (ps : List Piece) : List Char := '"' :: ps.flatMap Piece.render ++ ['"']

/-- A number, digits before its `rest`. -/
def Numeral.render (n : Numeral) : List Char :=
  (if n.negative then ['-'] else []) ++ Nat.toDigits 10 n.whole ++ n.rest

mutual

/-- The characters of a value, with no blanks between them. -/
def chars : Json → List Char
  | .null => "null".toList
  | .bool true => "true".toList
  | .bool false => "false".toList
  | .number n => n.render
  | .string ps => renderString ps
  | .array [] => ['[', ']']
  | .array (v :: vs) => '[' :: chars v ++ itemsTail vs
  | .object [] => ['\x7b', '\x7d']
  | .object ((k, v) :: ms) => '\x7b' :: renderString k ++ ':' :: chars v ++ membersTail ms

/-- The items after the first one, each behind a `,`, and the closing bracket. -/
def itemsTail : List Json → List Char
  | [] => [']']
  | v :: vs => ',' :: chars v ++ itemsTail vs

/-- The members after the first one, each behind a `,`, and the closing brace. -/
def membersTail : List (List Piece × Json) → List Char
  | [] => ['\x7d']
  | (k, v) :: ms => ',' :: renderString k ++ ':' :: chars v ++ membersTail ms

end

/-- The text of a value: its `chars`. -/
def render (v : Json) : String := String.ofList (chars v)

end ShaderCompat.Json
