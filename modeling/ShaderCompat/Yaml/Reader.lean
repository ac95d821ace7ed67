import ShaderCompat.Yaml
import ShaderCompat.Yaml.Token

/-!
# Reading YAML

`Yaml.parse` reads a text as one document. An empty text is the document that holds nothing; a text
with a second document is refused.

Each reader takes the tokens from where it stands and returns what it has read together with the
tokens that are left. The fuel bounds the nesting and the number of items; four units for every
token are more than enough.
-/

namespace ShaderCompat.Yaml

mutual

/-- Reads a value. Block collections are allowed only `inBlock`, and a sequence that is not indented
only if `flush`, as the key or the value of a block mapping. -/
def node : Nat → (inBlock flush : Bool) → List Token → Option (Yaml × List Token)
  | 0, _, _, _ => none
  | fuel + 1, inBlock, flush, ts =>
    match ts with
    | .scalar plain text :: rest => some (.scalar plain text, rest)
    | .flowSequenceStart :: rest => do
      let (items, rest) ← flowItems fuel true rest
      return (.sequence items, rest)
    | .flowMappingStart :: rest => do
      let (pairs, rest) ← flowPairs fuel true rest
      return (.mapping pairs, rest)
    | .blockSequenceStart :: rest =>
      if inBlock then do
        let (items, rest) ← blockItems fuel rest
        return (.sequence items, rest)
      else none
    | .blockMappingStart :: rest =>
      if inBlock then do
        let (pairs, rest) ← blockPairs fuel rest
        return (.mapping pairs, rest)
      else none
    | .blockEntry :: _ =>
      if flush then do
        let (items, rest) ← flushItems fuel ts
        return (.sequence items, rest)
      else none
    | _ => none

/-- Reads a value, or nothing if one of `stops` comes next. -/
def nodeBefore : Nat → (stops : List Token) → (inBlock flush : Bool) → List Token →
    Option (Yaml × List Token)
  | 0, _, _, _, _ => none
  | fuel + 1, stops, inBlock, flush, ts =>
    if ts.head?.any stops.contains then some (empty, ts) else node fuel inBlock flush ts

/-- Reads a value if its mark, `value`, comes next, and nothing otherwise. -/
def valueBefore : Nat → (stops : List Token) → (inBlock flush : Bool) → List Token →
    Option (Yaml × List Token)
  | 0, _, _, _, _ => none
  | fuel + 1, stops, inBlock, flush, ts =>
    match ts with
    | .value :: rest => nodeBefore fuel stops inBlock flush rest
    | _ => some (empty, ts)

/-- Reads the items of a block sequence, up to its `blockEnd`. -/
def blockItems : Nat → List Token → Option (List Yaml × List Token)
  | 0, _ => none
  | fuel + 1, ts =>
    match ts with
    | .blockEnd :: rest => some ([], rest)
    | .blockEntry :: rest => do
      let (item, rest) ← nodeBefore fuel [.blockEntry, .blockEnd] true false rest
      let (items, rest) ← blockItems fuel rest
      return (item :: items, rest)
    | _ => none

/-- Reads the items of a sequence that is not indented, which ends where no `blockEntry` comes. -/
def flushItems : Nat → List Token → Option (List Yaml × List Token)
  | 0, _ => none
  | fuel + 1, ts =>
    match ts with
    | .blockEntry :: rest => do
      let (item, rest) ← nodeBefore fuel [.blockEntry, .key, .value, .blockEnd] true false rest
      let (items, rest) ← flushItems fuel rest
      return (item :: items, rest)
    | _ => some ([], ts)

/-- Reads the pairs of a block mapping, up to its `blockEnd`. -/
def blockPairs : Nat → List Token → Option (List (Yaml × Yaml) × List Token)
  | 0, _ => none
  | fuel + 1, ts =>
    match ts with
    | .blockEnd :: rest => some ([], rest)
    | .key :: rest => do
      let stops := [.key, .value, .blockEnd]
      let (key, rest) ← nodeBefore fuel stops true true rest
      let (value, rest) ← valueBefore fuel stops true true rest
      let (pairs, rest) ← blockPairs fuel rest
      return ((key, value) :: pairs, rest)
    | _ => none

/-- Reads the items of a flow sequence; a pair in it is a mapping of its own. Where the key of such
a pair is left out, the token in its place is passed over. -/
def flowItems : Nat → (first : Bool) → List Token → Option (List Yaml × List Token)
  | 0, _, _ => none
  | fuel + 1, first, ts =>
    match ts with
    | .flowSequenceEnd :: rest => some ([], rest)
    | _ => do
      let ts ← if first then some ts else match ts with
        | .flowEntry :: rest => some rest
        | _ => none
      match ts with
      -- a comma may stand before the bracket
      | .flowSequenceEnd :: rest => some ([], rest)
      | .key :: rest =>
        let (key, rest) ← match rest with
          | .value :: rest | .flowEntry :: rest | .flowSequenceEnd :: rest => some (empty, rest)
          | _ => node fuel false false rest
        let (value, rest) ← valueBefore fuel [.flowEntry, .flowSequenceEnd] false false rest
        let (items, rest) ← flowItems fuel false rest
        return (.mapping [(key, value)] :: items, rest)
      | _ =>
        let (item, rest) ← node fuel false false ts
        let (items, rest) ← flowItems fuel false rest
        return (item :: items, rest)

/-- Reads the pairs of a flow mapping; a value alone is a key with `empty` after it. -/
def flowPairs : Nat → (first : Bool) → List Token → Option (List (Yaml × Yaml) × List Token)
  | 0, _, _ => none
  | fuel + 1, first, ts =>
    match ts with
    | .flowMappingEnd :: rest => some ([], rest)
    | _ => do
      let ts ← if first then some ts else match ts with
        | .flowEntry :: rest => some rest
        | _ => none
      match ts with
      -- a comma may stand before the brace
      | .flowMappingEnd :: rest => some ([], rest)
      | .key :: rest =>
        let (key, rest) ← nodeBefore fuel [.value, .flowEntry, .flowMappingEnd] false false rest
        let (value, rest) ← valueBefore fuel [.flowEntry, .flowMappingEnd] false false rest
        let (pairs, rest) ← flowPairs fuel false rest
        return ((key, value) :: pairs, rest)
      | _ =>
        let (key, rest) ← node fuel false false ts
        let (pairs, rest) ← flowPairs fuel false rest
        return ((key, empty) :: pairs, rest)

end

/-- Reads the value of a document, behind its `documentStart` if it has one. -/
def content (fuel : Nat) : List Token → Option (Yaml × List Token)
  | [] => some (empty, [])
  | .documentStart :: rest =>
    match rest with
    | [] | .documentStart :: _ | .documentEnd :: _ => some (empty, rest)
    | _ => node fuel true false rest
  | ts => node fuel true false ts

/-- The document that a text holds: one at most, of the tokens that `Token.scan` gives. -/
def parse (text : String) : Option Yaml := do
  let tokens ← Token.scan text.toList
  let (v, rest) ← content (4 * tokens.length + 4) tokens
  if rest.all (· == .documentEnd) then some v else none

end ShaderCompat.Yaml
