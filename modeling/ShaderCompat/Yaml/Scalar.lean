import ShaderCompat.Radix
import ShaderCompat.Yaml.Text

/-!
# YAML scalars

The three styles of scalar: single quoted, double quoted and plain. A scalar may go over several
lines. Its reader tells the characters of its text from the blanks and line ends between them, and
`fold` makes the text: blanks around a line end are dropped, a single line end is a blank, and of
several line ends the first is dropped. A double-quoted scalar may also escape a line end, which is
then dropped.
-/

namespace ShaderCompat.Yaml

/-- An element of a scalar. `fold` makes the text of the elements. -/
inductive Element where
  | char (c : Char)
  | blank (c : Char)
  | lineEnd (c : Char)
  /-- An escaped line end. -/
  | joint
deriving DecidableEq, Repr

/-- The element that a character is when it stands for itself, by `isBlank` and `isBreak`. -/
def Element.ofChar (c : Char) : Element :=
  if isBlank c then .blank c else if isBreak c then .lineEnd c else .char c

/-! ## Folding -/

/-- What has been passed since the last `char` of the text. -/
inductive Gap where
  | blanks (cs : List Char)
  /-- Line ends; if the first of them was `escaped`, it is not in the list. -/
  | lines (breaks : List Char) (escaped : Bool)
deriving DecidableEq, Repr

/-- The text that a gap is folded into; of line feeds one is a blank or dropped, and the Unicode
separators are always kept. -/
def Gap.text : Gap → List Char
  | .blanks cs => cs
  | .lines ['\n'] false => [' ']
  | .lines ('\n' :: more) false => more
  | .lines breaks _ => breaks

/-- The gap after a further blank, which counts only among `blanks`. -/
def Gap.blank (c : Char) : Gap → Gap
  | .blanks cs => .blanks (cs ++ [c])
  | gap => gap

/-- The gap after a further line end, which drops the blanks before it. -/
def Gap.lineEnd (c : Char) : Gap → Gap
  | .blanks _ => .lines [c] false
  | .lines breaks escaped => .lines (breaks ++ [c]) escaped

/-- The text of a scalar from the elements that come after a gap. A `joint` ends the gap before it
and starts another. -/
def foldFrom (gap : Gap) : List Element → List Char
  | [] => gap.text
  | .char c :: es => gap.text ++ c :: foldFrom (.blanks []) es
  | .blank c :: es => foldFrom (gap.blank c) es
  | .lineEnd c :: es => foldFrom (gap.lineEnd c) es
  | .joint :: es => gap.text ++ foldFrom (.lines [] true) es

/-- The text of a scalar: `foldFrom` a gap with nothing in it. -/
def fold (es : List Element) : String := String.ofList (foldFrom (.blanks []) es)

/-! ## Quoted scalars

A quoted scalar has to end, and none of its lines may start with a document mark. -/

/-- Whether a character ends a line that is followed by a document mark, as `atDocumentMark` has it.
-/
def endsDocument (c : Char) (cs : List Char) : Bool := isBreak c && atDocumentMark cs

/-- Reads a single-quoted scalar from behind its opening quote; a quote in it is written twice, and
`\` stands for itself. -/
def singleQuoted : List Char → Option (List Element × List Char)
  | [] => none
  | '\'' :: '\'' :: cs => (singleQuoted cs).map fun (es, rest) => (.char '\'' :: es, rest)
  | '\'' :: cs => some ([], cs)
  | c :: cs =>
    if endsDocument c cs then none
    else (singleQuoted cs).map fun (es, rest) => (.ofChar c :: es, rest)

/-- The character that a backslash and one more character name. Those of `escapeDigits?` are not
among them. -/
def escaped? : Char → Option Char
  | '0' => some '\x00'
  | 'a' => some '\x07'
  | 'b' => some '\x08'
  | 't' | '\t' => some '\t'
  | 'n' => some '\n'
  | 'v' => some '\x0b'
  | 'f' => some '\x0c'
  | 'r' => some '\r'
  | 'e' => some '\x1b'
  | ' ' => some ' '
  | '"' => some '"'
  | '/' => some '/'
  | '\\' => some '\\'
  | 'N' => some '\x85'
  | '_' => some '\u00a0'
  | 'L' => some '\u2028'
  | 'P' => some '\u2029'
  | _ => none

/-- The number of hexadecimal digits that an escape has, by the letter behind the `\`. -/
def escapeDigits? : Char → Option Nat
  | 'x' => some 2
  | 'u' => some 4
  | 'U' => some 8
  | _ => none

/-- The character of a code point, if `Nat.isValidChar`; half of a surrogate pair is none. -/
def scalarValue? (n : Nat) : Option Char := if n.isValidChar then some (Char.ofNat n) else none

/-- Where the reader of a double-quoted scalar stands: in its text or in an escape. -/
inductive QuoteState where
  | text
  /-- Behind a `\`. -/
  | escape
  /-- In an escape of which `left` digits are to come; those before make `value`. -/
  | digits (left value : Nat)
deriving DecidableEq, Repr

/-- Reads a double-quoted scalar from behind its opening quote. An escaped line end is a `joint`. -/
def doubleQuoted : QuoteState → List Char → Option (List Element × List Char)
  | _, [] => none
  | .text, c :: cs =>
    if c = '"' then some ([], cs)
    else if c = '\\' then doubleQuoted .escape cs
    else if endsDocument c cs then none
    else (doubleQuoted .text cs).map fun (es, rest) => (.ofChar c :: es, rest)
  | .escape, c :: cs =>
    if isBreak c then
      if endsDocument c cs then none
      else (doubleQuoted .text cs).map fun (es, rest) => (.joint :: es, rest)
    else
      match escapeDigits? c with
      | some n => doubleQuoted (.digits n 0) cs
      | none => do
        let c ← escaped? c
        let (es, rest) ← doubleQuoted .text cs
        return (.char c :: es, rest)
  | .digits left value, c :: cs => do
    let digit ← Radix.digit? 16 c
    let value := 16 * value + digit
    if left ≤ 1 then
      let c ← scalarValue? value
      let (es, rest) ← doubleQuoted .text cs
      return (.char c :: es, rest)
    else doubleQuoted (.digits (left - 1) value) cs

/-! ## Plain scalars

A plain scalar ends where the text could be something else: at a colon before a gap, at a comment,
at a document mark, at a line that is not indented enough, and inside a flow collection at a bracket
or a comma. -/

/-- Where a plain scalar stands, which decides where it ends. -/
structure PlainContext where
  /-- Inside a flow collection, where indentation does not count. -/
  inFlow : Bool
  /-- The least column for a further line, unless `inFlow`. -/
  indent : Nat
deriving DecidableEq, Repr

/-- What the reader of a plain scalar has passed since the last `char` of the text; it needs to know
less than a `Gap`. -/
inductive PlainGap where
  | nothing
  | blanks
  | lines
deriving DecidableEq, Repr

/-- Whether a `:` is followed by an indicator, which no plain scalar in a flow collection may have.
-/
def atStrayColon : List Char → Bool
  | ':' :: c :: _ => isFlowIndicator c || c = '?'
  | _ => false

/-- Whether a plain scalar ends here: at a `:` before a gap, or `inFlow` at an indicator. -/
def atPlainEnd (inFlow : Bool) : List Char → Bool
  | ':' :: cs => atGap cs
  | c :: _ => inFlow && isFlowIndicator c
  | [] => true

/-- Whether a plain scalar does not go on here after a gap: the line is not indented enough, or
starts with a document mark, or a comment follows. -/
def atGapEnd (context : PlainContext) (column : Nat) (cs : List Char) : Bool :=
  !context.inFlow && column < context.indent || column = 0 && atDocumentMark cs ||
    cs.head? = some '#'

/-- A further element, which is not kept if nothing follows: the gap behind a scalar is not in it.
-/
def keepInner (e : Element) : List Element → List Element
  | [] => []
  | es => e :: es

/-- Reads a plain scalar, and the gap after it. The answer also says whether that gap has a line end
in it. A gap is kept, by `keepInner`, only once the scalar goes on behind it. -/
def plainFrom (context : PlainContext) :
    PlainGap → Nat → List Char → Option (List Element × List Char × Bool)
  | gap, _, [] => some ([], [], gap = .lines)
  | gap, column, c :: cs =>
    if isBreak c then
      -- kept only if the scalar goes on behind it
      (plainFrom context .lines 0 cs).map fun (es, rest) => (keepInner (.lineEnd c) es, rest)
    else if isBlank c then
      -- a tab cannot indent
      if gap = .lines ∧ column < context.indent ∧ c = '\t' then none
      else
        let gap := if gap = .lines then .lines else .blanks
        (plainFrom context gap (column + 1) cs).map fun (es, rest) =>
          (keepInner (.blank c) es, rest)
    else if gap ≠ .nothing ∧ atGapEnd context column (c :: cs) then some ([], c :: cs, gap = .lines)
    -- the gap, if there is one, is inside the scalar from here on
    else if context.inFlow ∧ atStrayColon (c :: cs) then none
    else if atPlainEnd context.inFlow (c :: cs) then some ([], c :: cs, gap = .lines)
    else (plainFrom context .nothing (column + 1) cs).map fun (es, rest) => (.char c :: es, rest)

end ShaderCompat.Yaml
