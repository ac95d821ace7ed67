/-!
# Characters and positions in YAML

The classes of characters that YAML is made of, and positions, which follow from the characters that
have been passed. Carriage returns and next-line characters are turned into line feeds before
anything is read, so a line ends at a line feed or at one of the two Unicode separators.
-/

namespace ShaderCompat.Yaml

/-- The characters a stream may hold; control characters other than `\t`, `\n` and `\r` are not
among them. -/
def isPrintable (c : Char) : Bool :=
  c = '\t' || c = '\n' || c = '\r' || (' ' ≤ c && c ≤ '~') || c = '\x85' ||
    ('\u00a0' ≤ c && c ≤ '\ufffd') || 0x10000 ≤ c.toNat

/-- Writes every line end, other than the Unicode separators, as `\n`; that of `\r` and `\n` is one.
-/
def lineFeeds : List Char → List Char
  | '\r' :: '\n' :: cs => '\n' :: lineFeeds cs
  | c :: cs => (if c = '\r' ∨ c = '\x85' then '\n' else c) :: lineFeeds cs
  | [] => []

/-- Whether a character separates words: a blank or `\t`. -/
def isBlank (c : Char) : Bool := c = ' ' || c = '\t'

/-- Whether a character ends a line, once `lineFeeds` has been applied. -/
def isBreak (c : Char) : Bool := c = '\n' || c = '\u2028' || c = '\u2029'

/-- Whether the text is at a character that `isBlank`, at the end of a line, or at its own end. -/
def atGap : List Char → Bool
  | c :: _ => isBlank c || isBreak c
  | [] => true

/-- Whether the text goes on with `---` or `...`, a mark that starts or ends a document; it is one
only at the start of a line. -/
def atDocumentMark : List Char → Bool
  | '-' :: '-' :: '-' :: cs | '.' :: '.' :: '.' :: cs => atGap cs
  | _ => false

/-- The brackets and `,`, which end a plain scalar inside a flow collection. -/
def isFlowIndicator (c : Char) : Bool :=
  c = ',' || c = '[' || c = ']' || c = '\x7b' || c = '\x7d'

/-- Where a reader stands: how many bytes of UTF-8 it has passed (`offset`), how many lines, and how
many characters of the current line (`column`). -/
structure Position where
  offset : Nat := 0
  line : Nat := 0
  column : Nat := 0
deriving DecidableEq, Repr

namespace Position

/-- The position after one more character, which may end the line. -/
def after (p : Position) (c : Char) : Position :=
  if isBreak c then ⟨p.offset + c.utf8Size, p.line + 1, 0⟩
  else ⟨p.offset + c.utf8Size, p.line, p.column + 1⟩

/-- The position after more characters, `after` one by one. -/
def advance (p : Position) (cs : List Char) : Position := cs.foldl after p

end Position

end ShaderCompat.Yaml
