import ShaderCompat.Yaml.Scalar

/-!
# YAML tokens

`Token.scan` cuts a text into tokens. Block structure, which the text shows by indentation alone, is
made explicit: a block collection has a token where it starts and one where it ends.

A mapping key needs no mark of its own in front of it. Whatever could turn out to be one is
remembered as a candidate, and when a colon follows on the same line, the key mark and, if need be,
the start of the mapping are put in before it. Inside flow collections every level has a candidate
of its own.

What the documents of this library do not use is refused: anchors, aliases, tags, block scalars and
directives.
-/

namespace ShaderCompat.Yaml

/-- A token. A `key` is put in also where a mapping has no mark before its keys. -/
inductive Token where
  | documentStart
  | documentEnd
  | blockSequenceStart
  | blockMappingStart
  /-- The end of a block collection, of either kind. -/
  | blockEnd
  | flowSequenceStart
  | flowSequenceEnd
  | flowMappingStart
  | flowMappingEnd
  /-- The `-` before a sequence item. -/
  | blockEntry
  /-- The `,` after an item of a flow collection. -/
  | flowEntry
  | key
  | value
  | scalar (plain : Bool) (text : String)
deriving DecidableEq, Repr

/-- Something that could be a mapping key, if a `:` follows. -/
structure Candidate where
  /-- How many tokens come before it; a `key` may have to be put in there. -/
  token : Nat
  /-- Whether it stands where only a key can stand: at the column of the innermost block
  collection. -/
  required : Bool
  position : Position
deriving DecidableEq, Repr

/-- How many bytes the candidate may lie back when its `:` comes. -/
def Candidate.reach : Nat := 1024

/-- Whether a candidate can no longer be a key: it has to be on the same line, and within `reach`.
-/
def Candidate.isStale (k : Candidate) (p : Position) : Bool :=
  k.position.line < p.line || k.position.offset + reach < p.offset

/-- A text in the course of being cut into tokens: what is left of it, and the tokens so far. -/
structure Scanner where
  rest : List Char
  position : Position := {}
  tokens : List Token := []
  /-- The columns of the open block collections, innermost first. -/
  indents : List Nat := []
  /-- Whether a key may start here without a `?`. -/
  keyAllowed : Bool := true
  /-- The candidate of the innermost level. -/
  candidate : Option Candidate := none
  /-- The candidates of the levels around it, one for each open flow collection; so this list tells
  how deep in those the scanner is. -/
  outer : List (Option Candidate) := []
deriving DecidableEq, Repr

namespace Scanner

/-- Whether the scanner is inside a flow collection: there are `outer` levels. -/
def inFlow (s : Scanner) : Bool := !s.outer.isEmpty

/-- The scanner with less of the text left. The `position` follows from what is passed over. -/
def moveTo (s : Scanner) (rest : List Char) : Scanner :=
  { s with
    rest
    position := s.position.advance (s.rest.take (s.rest.length - rest.length)) }

/-- The scanner after `n` more characters. -/
def skip (n : Nat) (s : Scanner) : Scanner := s.moveTo (s.rest.drop n)

/-- Adds a token behind the others. -/
def emit (t : Token) (s : Scanner) : Scanner := { s with tokens := s.tokens ++ [t] }

/-! ## Between tokens -/

/-- Passes over blanks, line ends and comments, and tells whether a line end was among them
(`broken`). Tabs are blanks only where no key can start, so passing a line end outside flow
collections rules them out. A byte order mark may stand at the start of a line. -/
def gapFrom (inFlow : Bool) :
    (tabs lineStart comment broken : Bool) → List Char → List Char × Bool
  | _, _, _, broken, [] => ([], broken)
  | tabs, lineStart, comment, broken, c :: cs =>
    -- behind a line end a key may start, except in a flow collection
    if isBreak c then gapFrom inFlow inFlow true false true cs
    else if comment then gapFrom inFlow tabs false true broken cs
    else if c = ' ' ∨ c = '\t' ∧ tabs ∨ c = '\ufeff' ∧ lineStart then
      gapFrom inFlow tabs false false broken cs
    else if c = '#' then gapFrom inFlow tabs false true broken cs
    else (c :: cs, broken)

/-- Goes to the next token, by `gapFrom`. A key may start on a new line outside flow collections. -/
def skipGap (s : Scanner) : Scanner :=
  let (rest, broken) :=
    gapFrom s.inFlow (s.inFlow || !s.keyAllowed) (s.position.column = 0) false false s.rest
  let s := s.moveTo rest
  { s with keyAllowed := s.keyAllowed || broken && !s.inFlow }

/-- Forgets the candidates that are stale; one that is `required` may not be. -/
def dropStale (s : Scanner) : Option Scanner :=
  let stale (k : Candidate) := k.isStale s.position
  if (s.candidate :: s.outer).any (fun k => k.any fun k => k.required && stale k) then none
  else
    let keep (k : Option Candidate) := k.filter fun k => !stale k
    some { s with candidate := keep s.candidate, outer := s.outer.map keep }

/-! ## Candidates and indentation -/

/-- Forgets the candidate of the innermost level; one that is `required` may not be. -/
def dropCandidate (s : Scanner) : Option Scanner :=
  if s.candidate.any Candidate.required then none else some { s with candidate := none }

/-- Remembers that a key could start here, if `keyAllowed`. -/
def saveCandidate (s : Scanner) : Option Scanner :=
  if s.keyAllowed then do
    let required := !s.inFlow && s.indents.head? = some s.position.column
    let s ← s.dropCandidate
    return { s with candidate := some ⟨s.tokens.length, required, s.position⟩ }
  else some s

/-- Sets `keyAllowed`. -/
def allowKey (allowed : Bool) (s : Scanner) : Scanner := { s with keyAllowed := allowed }

/-- Opens a block collection at a column that is indented further, with its token put in after `n`
tokens. -/
def openBlock (start : Token) (column n : Nat) (s : Scanner) : Scanner :=
  if s.inFlow || s.indents.head?.any (column ≤ ·) then s
  else { s with indents := column :: s.indents, tokens := s.tokens.insertIdx n start }

/-- Closes the block collections for whose columns a condition holds, from the innermost on, with a
`blockEnd` for each. -/
def closeBlocks (condition : Nat → Bool) (s : Scanner) : Scanner :=
  if s.inFlow then s
  else
    { s with
      indents := s.indents.dropWhile condition
      tokens := s.tokens ++ (s.indents.takeWhile condition).map fun _ => .blockEnd }

/-! ## Single tokens

Each of these reads the token that the scanner stands before. -/

/-- Reads the mark that starts or ends a document, and closes all block collections. -/
def documentMark (t : Token) (s : Scanner) : Option Scanner := do
  let s ← (s.closeBlocks fun _ => true).dropCandidate
  return ((s.allowKey false).emit t).skip 3

/-- Reads an opening bracket; the collection itself could be a key, and its `candidate` is put among
the `outer` ones. -/
def flowStart (t : Token) (s : Scanner) : Option Scanner := do
  let s ← s.saveCandidate
  let s := { s with candidate := none, outer := s.candidate :: s.outer }
  return ((s.allowKey true).emit t).skip 1

/-- Reads a closing bracket, and goes back to the `candidate` of the level around it. -/
def flowEnd (t : Token) (s : Scanner) : Option Scanner := do
  let s ← s.dropCandidate
  let s := match s.outer with
    | [] => s
    | k :: outer => { s with candidate := k, outer }
  return ((s.allowKey false).emit t).skip 1

/-- Reads a `,`; a key may start behind it. -/
def flowEntry (s : Scanner) : Option Scanner := do
  let s ← s.dropCandidate
  return ((s.allowKey true).emit .flowEntry).skip 1

/-- Reads the `-` before an item, which opens a block sequence if it is indented further. -/
def blockEntry (s : Scanner) : Option Scanner := do
  if !s.inFlow && !s.keyAllowed then none
  let s ← (s.openBlock .blockSequenceStart s.position.column s.tokens.length).dropCandidate
  return ((s.allowKey true).emit .blockEntry).skip 1

/-- Reads the `?` before a key, which opens a block mapping if it is indented further. -/
def keyMark (s : Scanner) : Option Scanner := do
  if !s.inFlow && !s.keyAllowed then none
  let s ← (s.openBlock .blockMappingStart s.position.column s.tokens.length).dropCandidate
  return ((s.allowKey (!s.inFlow)).emit .key).skip 1

/-- Reads the `:` before a value, which makes a key of the candidate. -/
def valueMark (s : Scanner) : Option Scanner :=
  match s.candidate with
  | some k =>
    -- the start of the mapping, if there is one, comes before the key mark
    let s := { s with candidate := none, tokens := s.tokens.insertIdx k.token .key }
    let s := s.openBlock .blockMappingStart k.position.column k.token
    some (((s.allowKey false).emit .value).skip 1)
  | none => do
    -- the value of a marked key, or of none
    if !s.inFlow && !s.keyAllowed then none
    let s := s.openBlock .blockMappingStart s.position.column s.tokens.length
    return ((s.allowKey (!s.inFlow)).emit .value).skip 1

/-- Reads a quoted scalar, which could be a key, with `read` for its style. -/
def quoted (read : List Char → Option (List Element × List Char)) (s : Scanner) :
    Option Scanner := do
  let s ← s.saveCandidate
  let (es, rest) ← read (s.rest.drop 1)
  return ((s.allowKey false).emit (.scalar false (fold es))).moveTo rest

/-- Reads a plain scalar, which could be a key; behind one that goes to the end of its line a key
may start. -/
def plain (s : Scanner) : Option Scanner := do
  let s ← s.saveCandidate
  let context := ⟨s.inFlow, s.indents.head?.elim 0 (· + 1)⟩
  let (es, rest, broken) ← plainFrom context .nothing s.position.column s.rest
  return ((s.allowKey broken).emit (.scalar true (fold es))).moveTo rest

/-- Whether a character starts no plain scalar, apart from `-`, `?` and `:`, which may. -/
def isIndicator (c : Char) : Bool :=
  isFlowIndicator c || "#&*!|>'\"%@\x60".toList.contains c

/-- Reads the token that starts with `c`. Marks are tried before scalars, and a plain scalar last.
-/
def token (c : Char) (cs : List Char) (s : Scanner) : Option Scanner :=
  if s.position.column = 0 ∧ atDocumentMark (c :: cs) then
    s.documentMark (if c = '-' then .documentStart else .documentEnd)
  else if c = '[' then s.flowStart .flowSequenceStart
  else if c = '\x7b' then s.flowStart .flowMappingStart
  else if c = ']' then s.flowEnd .flowSequenceEnd
  else if c = '\x7d' then s.flowEnd .flowMappingEnd
  else if c = ',' then s.flowEntry
  else if c = '-' ∧ atGap cs then s.blockEntry
  else if c = '?' ∧ (s.inFlow ∨ atGap cs) then s.keyMark
  else if c = ':' ∧ (s.inFlow ∨ atGap cs) then s.valueMark
  else if c = '\'' then s.quoted singleQuoted
  else if c = '"' then s.quoted (doubleQuoted .text)
  else if isBlank c ∨ isIndicator c then none
  else s.plain

/-- The tokens at the end of the text: what is open in blocks is closed, and no candidate may be
`required`. -/
def finish (s : Scanner) : Option (List Token) := do
  let s ← (s.closeBlocks fun _ => true).dropCandidate
  return s.tokens

/-- Reads tokens to the end of the text, with a unit of fuel for each. -/
def run : Nat → Scanner → Option (List Token)
  | 0, _ => none
  | fuel + 1, s => do
    let s ← s.skipGap.dropStale
    let s := s.closeBlocks (s.position.column < ·)
    match s.rest with
    | [] => s.finish
    | c :: cs => run fuel (← s.token c cs)

end Scanner

/-- The tokens of a text. Every token takes a character at least, so its length is fuel enough for
`run`. -/
def Token.scan (text : List Char) : Option (List Token) :=
  if text.all isPrintable then
    let text := lineFeeds text
    ({ rest := text } : Scanner).run (text.length + 1)
  else none

end ShaderCompat.Yaml
