import ShaderCompat.Json
import ShaderCompat.Radix

/-!
# Reading JSON

`Json.parse` reads a whole text as one value. It is strict: nothing but blanks may stand before or
after the value, a string may not hold raw control characters, and the characters after a backslash
are those of the standard.

Each reader takes the characters from where it stands and returns what it has read together with the
characters that are left. The fuel of the recursive readers bounds the nesting and the number of
members; every unit of it goes with a character, so the length of the text is enough.
-/

namespace ShaderCompat.Json

/-- The blanks that may stand between tokens. -/
def isBlank (c : Char) : Bool := c = ' ' || c = '\n' || c = '\t' || c = '\r'

/-- The characters after the blanks, if there are any. -/
def skipBlanks (cs : List Char) : List Char := cs.dropWhile isBlank

/-! ## Strings -/

/-- The first half of a surrogate pair, `0xD800` to `0xDBFF`. -/
def isHighHalf (unit : Nat) : Bool := 0xD800 ≤ unit && unit < 0xDC00

/-- The second half of a surrogate pair, `0xDC00` to `0xDFFF`. -/
def isLowHalf (unit : Nat) : Bool := 0xDC00 ≤ unit && unit < 0xE000

/-- The piece that an escape of four digits names, a `half` if it is not a character by itself. -/
def Piece.ofUnit (unit : Nat) : Piece :=
  if isHighHalf unit || isLowHalf unit then .half unit else .char (Char.ofNat unit)

/-- The character that a backslash and one more character name, but for `u`. -/
def unescape? : Char → Option Char
  | '"' => some '"'
  | '\\' => some '\\'
  | '/' => some '/'
  | 'b' => some '\x08'
  | 'f' => some '\x0c'
  | 'n' => some '\n'
  | 'r' => some '\r'
  | 't' => some '\t'
  | _ => none

/-- Reads pieces up to the closing quote, each escape as a piece of its own. Control characters have
to be escaped. -/
def pieces : List Char → Option (List Piece × List Char)
  | [] => none
  | '"' :: rest => some ([], rest)
  | '\\' :: 'u' :: a :: b :: c :: d :: rest => do
    let unit ← Radix.number? 16 [a, b, c, d]
    let (ps, rest) ← pieces rest
    return (.ofUnit unit :: ps, rest)
  | '\\' :: e :: rest => do
    -- an escape of four digits with fewer than four ends here
    let c ← unescape? e
    let (ps, rest) ← pieces rest
    return (.char c :: ps, rest)
  | c :: rest =>
    if c < ' ' then none
    else (pieces rest).map fun (ps, rest) => (.char c :: ps, rest)

/-- Puts the two halves of each surrogate pair together. A `half` with no other to it stays. -/
def joinHalves : List Piece → List Piece
  | .half high :: .half low :: ps =>
    if isHighHalf high && isLowHalf low then
      .char (Char.ofNat (0x10000 + (high - 0xD800) * 0x400 + (low - 0xDC00))) :: joinHalves ps
    else .half high :: joinHalves (.half low :: ps)
  | p :: ps => p :: joinHalves ps
  | [] => []

/-- Reads a string from behind its opening quote: its `pieces`, with halves joined. -/
def stringBody (cs : List Char) : Option (List Piece × List Char) :=
  (pieces cs).map fun (ps, rest) => (joinHalves ps, rest)

/-! ## Numbers -/

/-- Reads as many digits as there are, none included. -/
def digits (cs : List Char) : List Char × List Char :=
  (cs.takeWhile Char.isDigit, cs.dropWhile Char.isDigit)

/-- Reads the digits before the point; `0` stands alone. -/
def wholePart : List Char → Option (Nat × List Char)
  | '0' :: rest => some (0, rest)
  | cs =>
    match digits cs with
    | ([], _) => none
    | (ds, rest) => some (Nat.ofDigitChars 10 ds 0, rest)

/-- Reads a sign, `+` or `-`, if there is one. -/
def signPart : List Char → List Char × List Char
  | '+' :: rest => (['+'], rest)
  | '-' :: rest => (['-'], rest)
  | cs => ([], cs)

/-- Reads `.` and digits, if they are there; a point without digits is left. -/
def fractionPart : List Char → List Char × List Char
  | '.' :: cs =>
    match digits cs with
    | ([], _) => ([], '.' :: cs)
    | (ds, rest) => ('.' :: ds, rest)
  | cs => ([], cs)

/-- Reads an exponent, if there is one; an `e` without digits is left. -/
def exponentPart : List Char → List Char × List Char
  | [] => ([], [])
  | e :: cs =>
    if e = 'e' ∨ e = 'E' then
      match digits (signPart cs).2 with
      | ([], _) => ([], e :: cs)
      | (ds, rest) => (e :: (signPart cs).1 ++ ds, rest)
    else ([], e :: cs)

/-- Reads a number behind its sign, of which `negative` tells. -/
def magnitude (negative : Bool) (cs : List Char) : Option (Numeral × List Char) := do
  let (whole, rest) ← wholePart cs
  let (fraction, rest) := fractionPart rest
  let (exponent, rest) := exponentPart rest
  return ({ negative, whole, rest := fraction ++ exponent }, rest)

/-- Reads a number, which may start with `-`. -/
def numeral : List Char → Option (Numeral × List Char)
  | '-' :: rest => magnitude true rest
  | cs => magnitude false cs

/-! ## Values -/

/-- Reads a key and the `:` after it. -/
def key (cs : List Char) : Option (List Piece × List Char) :=
  match skipBlanks cs with
  | '"' :: rest => do
    let (k, rest) ← stringBody rest
    match skipBlanks rest with
    | ':' :: rest => some (k, rest)
    | _ => none
  | _ => none

mutual

/-- Reads a value. A unit of fuel is spent on each level of nesting. -/
def value : Nat → List Char → Option (Json × List Char)
  | 0, _ => none
  | fuel + 1, cs =>
    match skipBlanks cs with
    | 'n' :: 'u' :: 'l' :: 'l' :: rest => some (.null, rest)
    | 't' :: 'r' :: 'u' :: 'e' :: rest => some (.bool true, rest)
    | 'f' :: 'a' :: 'l' :: 's' :: 'e' :: rest => some (.bool false, rest)
    | '"' :: rest => do
      let (s, rest) ← stringBody rest
      return (.string s, rest)
    | '[' :: rest =>
      match skipBlanks rest with
      | ']' :: rest => some (.array [], rest)
      | rest => do
        let (v, rest) ← value fuel rest
        let (vs, rest) ← moreItems fuel rest
        return (.array (v :: vs), rest)
    | '\x7b' :: rest =>
      match skipBlanks rest with
      | '\x7d' :: rest => some (.object [], rest)
      | rest => do
        let (k, rest) ← key rest
        let (v, rest) ← value fuel rest
        let (ms, rest) ← moreMembers fuel rest
        return (.object ((k, v) :: ms), rest)
    | rest => do
      let (n, rest) ← numeral rest
      return (.number n, rest)

/-- Reads the items after the first one, up to `]`. -/
def moreItems : Nat → List Char → Option (List Json × List Char)
  | 0, _ => none
  | fuel + 1, cs =>
    match skipBlanks cs with
    | ']' :: rest => some ([], rest)
    | ',' :: rest => do
      let (v, rest) ← value fuel rest
      let (vs, rest) ← moreItems fuel rest
      return (v :: vs, rest)
    | _ => none

/-- Reads the members after the first one, up to the closing brace. -/
def moreMembers : Nat → List Char → Option (List (List Piece × Json) × List Char)
  | 0, _ => none
  | fuel + 1, cs =>
    match skipBlanks cs with
    | '\x7d' :: rest => some ([], rest)
    | ',' :: rest => do
      let (k, rest) ← key rest
      let (v, rest) ← value fuel rest
      let (ms, rest) ← moreMembers fuel rest
      return ((k, v) :: ms, rest)
    | _ => none

end

/-- The value that a text writes: `value` with as much fuel as there are characters, and nothing but
blanks behind. -/
def parse (text : String) : Option Json :=
  let cs := text.toList
  match value (cs.length + 1) cs with
  | some (v, rest) => if (skipBlanks rest).isEmpty then some v else none
  | none => none

end ShaderCompat.Json
