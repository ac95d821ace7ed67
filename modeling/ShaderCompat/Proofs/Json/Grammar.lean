import ShaderCompat.Json.Reader

/-!
# The grammar of JSON texts

What the characters of a text have to be for it to write a value, whatever reads them. A value has
many texts: blanks may stand between the tokens, and a character of a string may be escaped in
several ways. A number has one text only, for a numeral is kept as it is written.

`Phrase.Written` is about values and about the tails of arrays and objects, and `WrittenAs` about
whole texts.
-/

namespace ShaderCompat.Json

/-! ## Strings -/

/-- Whether a unit is half of a surrogate pair. -/
def isHalf (unit : Nat) : Bool := isHighHalf unit || isLowHalf unit

/-- The four hexadecimal digits of a unit. -/
def UnitDigits (ds : List Char) (unit : Nat) : Prop :=
  ds.length = 4 ∧ Radix.number? 16 ds = some unit

/-- What stands between the quotes of a string with some pieces. A piece may have several spellings.
-/
inductive Spelled : List Char → List Piece → Prop where
  | nil : Spelled [] []
  /-- A character that stands for itself. -/
  | char {c : Char} {cs : List Char} {ps : List Piece} (hcontrol : ¬c < ' ') (hquote : c ≠ '"')
      (hescape : c ≠ '\\') (h : Spelled cs ps) : Spelled (c :: cs) (.char c :: ps)
  /-- A character that is named by a backslash and one more. -/
  | short {e c : Char} {cs : List Char} {ps : List Piece} (he : unescape? e = some c)
      (h : Spelled cs ps) : Spelled ('\\' :: e :: cs) (.char c :: ps)
  /-- A character that is named by its unit. -/
  | unit {ds cs : List Char} {unit : Nat} {ps : List Piece} (hunit : UnitDigits ds unit)
      (hwhole : isHalf unit = false) (h : Spelled cs ps) :
      Spelled ('\\' :: 'u' :: ds ++ cs) (.char (Char.ofNat unit) :: ps)
  /-- A character that is named by its surrogate pair. -/
  | pair {ds ds' cs : List Char} {high low : Nat} {ps : List Piece} (hhigh : UnitDigits ds high)
      (hlow : UnitDigits ds' low) (hishigh : isHighHalf high = true)
      (hislow : isLowHalf low = true) (h : Spelled cs ps) :
      Spelled ('\\' :: 'u' :: ds ++ '\\' :: 'u' :: ds' ++ cs)
        (.char (Char.ofNat (0x10000 + (high - 0xD800) * 0x400 + (low - 0xDC00))) :: ps)
  /-- Half of a surrogate pair whose other half does not follow. -/
  | half {ds cs : List Char} {unit : Nat} {ps : List Piece} (hunit : UnitDigits ds unit)
      (hhalf : isHalf unit = true)
      (halone : ∀ low rest, ps = .half low :: rest →
        ¬(isHighHalf unit = true ∧ isLowHalf low = true))
      (h : Spelled cs ps) : Spelled ('\\' :: 'u' :: ds ++ cs) (.half unit :: ps)

/-! ## Numbers -/

/-- A row of digits, of which there is one at least. -/
def Digits (ds : List Char) : Prop := ds ≠ [] ∧ ∀ c ∈ ds, c.isDigit = true

/-- The digits before the point, which have no needless `0` in front. -/
def WholeDigits (ds : List Char) : Prop := Digits ds ∧ (ds.head? = some '0' → ds = ['0'])

/-- A point and digits, or nothing. -/
inductive Fraction : List Char → Prop where
  | absent : Fraction []
  | given {ds : List Char} (h : Digits ds) : Fraction ('.' :: ds)

/-- An exponent, or nothing. -/
inductive Exponent : List Char → Prop where
  | absent : Exponent []
  | given {e : Char} {sign ds : List Char} (he : e = 'e' ∨ e = 'E')
      (hsign : sign = [] ∨ sign = ['+'] ∨ sign = ['-']) (h : Digits ds) :
      Exponent (e :: sign ++ ds)

/-- A number as it stands in a text. -/
inductive Numeral.Written : Numeral → List Char → Prop where
  | mk {negative : Bool} {ds fraction exponent : List Char} (hds : WholeDigits ds)
      (hfraction : Fraction fraction) (hexponent : Exponent exponent) :
      Numeral.Written ⟨negative, Nat.ofDigitChars 10 ds 0, fraction ++ exponent⟩
        ((if negative then ['-'] else []) ++ ds ++ fraction ++ exponent)

/-! ## Values -/

/-- A key and its colon, with blanks around the string. -/
inductive KeyWritten : List Piece → List Char → Prop where
  | mk {before cs after : List Char} {k : List Piece} (hbefore : ∀ b ∈ before, isBlank b = true)
      (h : Spelled cs k) (hafter : ∀ b ∈ after, isBlank b = true) :
      KeyWritten k (before ++ '"' :: cs ++ '"' :: after ++ [':'])

/-- What a stretch of a text can be. -/
inductive Phrase where
  | value (v : Json)
  /-- The items behind the first one of an array, and the closing bracket. -/
  | items (vs : List Json)
  /-- The members behind the first one of an object, and the closing brace. -/
  | members (ms : List (List Piece × Json))

/-- The characters of a phrase, which may have blanks in front. -/
inductive Phrase.Written : Phrase → List Char → Prop where
  | blank {p : Phrase} {b : Char} {cs : List Char} (hb : isBlank b = true) (h : Written p cs) :
      Written p (b :: cs)
  | null : Written (.value .null) ['n', 'u', 'l', 'l']
  | true : Written (.value (.bool true)) ['t', 'r', 'u', 'e']
  | false : Written (.value (.bool false)) ['f', 'a', 'l', 's', 'e']
  | number {n : Numeral} {cs : List Char} (h : n.Written cs) : Written (.value (.number n)) cs
  | string {cs : List Char} {ps : List Piece} (h : Spelled cs ps) :
      Written (.value (.string ps)) ('"' :: cs ++ ['"'])
  | emptyArray {ts : List Char} (h : Written (.items []) ts) :
      Written (.value (.array [])) ('[' :: ts)
  | array {v : Json} {vs : List Json} {cs ts : List Char} (hv : Written (.value v) cs)
      (hvs : Written (.items vs) ts) : Written (.value (.array (v :: vs))) ('[' :: cs ++ ts)
  | emptyObject {ts : List Char} (h : Written (.members []) ts) :
      Written (.value (.object [])) ('\x7b' :: ts)
  | object {k : List Piece} {v : Json} {ms : List (List Piece × Json)} {ks cs ts : List Char}
      (hk : KeyWritten k ks) (hv : Written (.value v) cs) (hms : Written (.members ms) ts) :
      Written (.value (.object ((k, v) :: ms))) ('\x7b' :: ks ++ cs ++ ts)
  | noItem : Written (.items []) [']']
  | item {v : Json} {vs : List Json} {cs ts : List Char} (hv : Written (.value v) cs)
      (hvs : Written (.items vs) ts) : Written (.items (v :: vs)) (',' :: cs ++ ts)
  | noMember : Written (.members []) ['\x7d']
  | member {k : List Piece} {v : Json} {ms : List (List Piece × Json)} {ks cs ts : List Char}
      (hk : KeyWritten k ks) (hv : Written (.value v) cs) (hms : Written (.members ms) ts) :
      Written (.members ((k, v) :: ms)) (',' :: ks ++ cs ++ ts)

/-- A whole text writes a value, with nothing but blanks around its `Phrase`. -/
def WrittenAs (v : Json) (text : String) : Prop :=
  ∃ cs blanks, text.toList = cs ++ blanks ∧ (Phrase.value v).Written cs ∧
    ∀ b ∈ blanks, isBlank b = true

end ShaderCompat.Json
