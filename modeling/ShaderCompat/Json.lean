/-!
# JSON values

A value of the JSON data model, as far as a document can express it: a number is kept as it is
written, members are kept in order and with their repetitions, and a string is a sequence of
characters in which an escape may have left half of a surrogate pair. `Json.text?` and
`Numeral.toInt?` say which strings are text and which numbers are integers.
-/

namespace ShaderCompat

/-- An element of a JSON string. A text is one that has no `half`. -/
inductive Json.Piece where
  | char (c : Char)
  /-- Half of a surrogate pair, named by an escape without its other half. -/
  | half (unit : Nat)
deriving DecidableEq, Repr

/-- A number as it is written; `toInt?` says what integer it is. -/
structure Json.Numeral where
  negative : Bool := false
  whole : Nat
  /-- The fraction and the exponent, which an integer has neither of. -/
  rest : List Char := []
deriving DecidableEq, Repr

/-- A JSON value, with the members of an object as they stand. -/
inductive Json where
  | null
  | bool (b : Bool)
  | number (n : Json.Numeral)
  | string (pieces : List Json.Piece)
  | array (items : List Json)
  | object (members : List (List Json.Piece × Json))
deriving Repr

namespace Json

/-- The integer that a number is written as; `-0` is none, nor is one with a fraction or an
exponent. -/
def Numeral.toInt? (n : Numeral) : Option Int :=
  if n.rest ≠ [] then none
  else if n.negative then if n.whole = 0 then none else some (-(n.whole : Int))
  else some n.whole

/-- The number that is written as an integer, the inverse of `toInt?`. -/
def Numeral.ofInt (n : Int) : Numeral := { negative := n < 0, whole := n.natAbs }

/-- The character of a piece, which a `half` has not. -/
def Piece.char? : Piece → Option Char
  | .char c => some c
  | .half _ => none

/-- The text of a string whose pieces are all characters. -/
def textOf (pieces : List Piece) : Option String := String.ofList <$> pieces.mapM Piece.char?

/-- The pieces of a text, the inverse of `textOf`. -/
def piecesOf (s : String) : List Piece := s.toList.map Piece.char

/-- The text of a `string`. -/
def text? : Json → Option String
  | .string pieces => textOf pieces
  | _ => none

/-- The integer of a `number`. -/
def int? : Json → Option Int
  | .number n => n.toInt?
  | _ => none

/-- The truth value of a `bool`. -/
def bool? : Json → Option Bool
  | .bool b => some b
  | _ => none

/-- The `string` with a text. -/
def ofText (s : String) : Json := .string (piecesOf s)

/-- The `number` written as an integer. -/
def ofInt (n : Int) : Json := .number (.ofInt n)

/-- The `object` with text keys. -/
def record (members : List (String × Json)) : Json :=
  .object (members.map fun (key, v) => (piecesOf key, v))

/-- `toInt?` reads a numeral that is written as an integer back as that integer. -/
theorem Numeral.toInt?_ofInt (n : Int) : (Numeral.ofInt n).toInt? = some n := by
  by_cases h : n < 0
  · have h₀ : n.natAbs ≠ 0 := by omega
    have h₁ : -(n.natAbs : Int) = n := by omega
    simp only [toInt?, ofInt, h, decide_true, ne_eq, not_true_eq_false, if_false, if_true, h₀, h₁]
  · have h₁ : (n.natAbs : Int) = n := by omega
    simp only [toInt?, ofInt, h, decide_false, ne_eq, not_true_eq_false, if_false,
      Bool.false_eq_true, h₁]

/-- `textOf` reads a text back from its pieces. -/
theorem textOf_piecesOf (s : String) : textOf (piecesOf s) = some s := by
  have h : ∀ cs : List Char, (cs.map Piece.char).mapM Piece.char? = some cs := by
    intro cs
    induction cs with
    | nil => rfl
    | cons c cs ih => simp [ih, Piece.char?]
  simp [textOf, piecesOf, h]

@[simp] theorem text?_ofText (s : String) : (ofText s).text? = some s := textOf_piecesOf s

@[simp] theorem int?_ofInt (n : Int) : (ofInt n).int? = some n := Numeral.toInt?_ofInt n

end Json

end ShaderCompat
