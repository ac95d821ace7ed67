import ShaderCompat.Proofs.Yaml.Flow
import ShaderCompat.Proofs.Yaml.Word

/-!
# Scanning what JSON prints

A JSON text is a text of YAML, a flow collection. For values composed of words and numbers the
scanner cuts the printed text into the tokens of the value it stands for (`scan_chars`): braces,
commas and colons stand for themselves, a quoted word is a scalar that is not plain, and a number or
a truth value is a plain scalar.

`Scanner.Flows` is what the scanner keeps to on such a text: no block collection is open, and no
candidate for a key has to become one.
-/

namespace ShaderCompat

namespace Json

open Yaml

mutual

/-- The value that YAML reads where `Json.chars` prints a value, given that its strings are words.
-/
def toYaml : Json → Yaml
  | .null => .scalar true "null"
  | .bool b => .scalar true (if b then "true" else "false")
  | .number n => .scalar true (String.ofList n.render)
  | .string ps => .scalar false (String.ofList (ps.filterMap Piece.char?))
  | .array vs => .sequence (itemsToYaml vs)
  | .object ms => .mapping (membersToYaml ms)

/-- The items of a sequence, each by `toYaml`. -/
def itemsToYaml : List Json → List Yaml
  | [] => []
  | v :: vs => toYaml v :: itemsToYaml vs

/-- The pairs of a mapping, each by `toYaml`. Keys are quoted, so they are not plain. -/
def membersToYaml : List (List Piece × Json) → List (Yaml × Yaml)
  | [] => []
  | (k, v) :: ms =>
    (.scalar false (String.ofList (k.filterMap Piece.char?)), toYaml v) :: membersToYaml ms

end

/-- The characters of `piecesOf` are those of the text. -/
theorem ofList_filterMap_piecesOf (s : String) :
    String.ofList ((piecesOf s).filterMap Piece.char?) = s := by
  rw [piecesOf, List.filterMap_map]
  change String.ofList (s.toList.filterMap some) = s
  rw [List.filterMap_some, String.ofList_toList]

/-- A text of JSON is a `scalar` to YAML, and not a plain one. -/
theorem toYaml_ofText (s : String) : (ofText s).toYaml = .scalar false s := by
  rw [ofText, toYaml, ofList_filterMap_piecesOf]

/-- A `record` is a `mapping` to YAML, with the same keys in the same order. -/
theorem toYaml_record (ms : List (String × Json)) :
    (record ms).toYaml = .mapping (ms.map fun (key, v) => (.scalar false key, v.toYaml)) := by
  rw [record, toYaml]
  congr 1
  induction ms with
  | nil => rfl
  | cons m ms ih =>
      obtain ⟨k, v⟩ := m
      rw [List.map_cons, membersToYaml, ih, ofList_filterMap_piecesOf]
      rfl

end Json

namespace Yaml

namespace Scanner

/-- The scanner is at `rest`, inside `depth` flow collections and no block collection, with some
`tokens` made, and may forget every candidate for a key. -/
structure Flows (s : Scanner) (depth : Nat) (rest : List Char) (tokens : List Token) : Prop where
  rest : s.rest = rest
  tokens : s.tokens = tokens
  indents : s.indents = []
  depth : s.outer.length = depth
  optional : ∀ o ∈ s.candidate :: s.outer, ∀ k ∈ o, k.required = false

/-- The characters of a word that starts as a plain scalar: not with a `-` that could be a block
entry or a document mark. -/
structure IsPlain (w : List Char) : Prop where
  chars : ∀ c ∈ w, isWordChar c = true
  start : ∃ c cs, w = c :: cs ∧ (c = '-' → ∃ d ds, cs = d :: ds ∧ d.isAlphanum = true)

/-- A candidate is good on its own line, up to `Candidate.reach` characters on. -/
theorem isStale_of_near {k : Candidate} {p : Position} (hline : p.line = k.position.line)
    (hoffset : p.offset ≤ k.position.offset + Candidate.reach) : k.isStale p = false := by
  rw [Candidate.isStale, hline, Bool.or_eq_false_iff, decide_eq_false_iff_not,
    decide_eq_false_iff_not]
  exact ⟨Nat.lt_irrefl _, Nat.not_lt.mpr hoffset⟩

/-! ## Before a token -/

/-- The scanner without the candidates that are stale. In flow collections `dropStale` gives it, as
none is required there. -/
def fresh (s : Scanner) : Scanner :=
  { s with
    candidate := s.candidate.filter fun k => !k.isStale s.position
    outer := s.outer.map fun k => k.filter fun k => !k.isStale s.position }

/-- `moveTo` where one is changes nothing. -/
theorem moveTo_self (s : Scanner) : s.moveTo s.rest = s := by
  rw [moveTo, Nat.sub_self, List.take_zero]
  rfl

/-- Where `gapFrom` finds no gap, `skipGap` does nothing. -/
theorem skipGap_of_gapFrom {s : Scanner}
    (h : gapFrom s.inFlow (s.inFlow || !s.keyAllowed) (s.position.column = 0) false false s.rest =
      (s.rest, false)) : s.skipGap = s := by
  rw [skipGap, h]
  simp only [moveTo_self, Bool.false_and, Bool.or_false]

/-- A visible character ends a gap, unless it is the `#` of a comment. -/
theorem skipGap_of_visible {s : Scanner} {c : Char} {cs : List Char} (hrest : s.rest = c :: cs)
    (hc : isGraphic c = true) (hcomment : c ≠ '#') : s.skipGap = s := by
  refine skipGap_of_gapFrom ?_
  have hspace : c ≠ ' ' := ne_of_class hc rfl
  have htab : c ≠ '\t' := ne_of_class hc rfl
  have hmark : c ≠ '\ufeff' := ne_of_class hc rfl
  rw [hrest, gapFrom, isBreak_of_isGraphic hc]
  simp [hspace, htab, hmark, hcomment]

section

variable {s : Scanner} {depth : Nat} {cs : List Char} {ts : List Token}

/-- No stale candidate is a required one, so `dropStale` does not fail. -/
theorem Flows.dropStale (h : s.Flows depth cs ts) : s.dropStale = some s.fresh := by
  have hnone : ¬(s.candidate :: s.outer).any (fun o => o.any fun k =>
      k.required && k.isStale s.position) = true := by
    rw [List.any_eq_true]
    rintro ⟨o, ho, hany⟩
    cases o with
    | none => contradiction
    | some k =>
        rw [Option.any_some, h.optional _ ho k rfl, Bool.false_and] at hany
        contradiction
  rw [Scanner.dropStale]
  exact if_neg hnone

/-- `Flows` holds without the stale candidates too. -/
theorem Flows.fresh (h : s.Flows depth cs ts) : s.fresh.Flows depth cs ts := by
  refine ⟨h.rest, h.tokens, h.indents, (List.length_map _).trans h.depth, ?_⟩
  change ∀ o ∈ (s.candidate :: s.outer).map fun o => o.filter fun k => !k.isStale s.position, _
  rw [List.forall_mem_map]
  exact fun o ho k hk => h.optional o ho k (Option.mem_filter_iff.mp hk).1

/-- In flow collections `closeBlocks` has no block to close. -/
theorem Flows.closeBlocks (h : s.Flows depth cs ts) (condition : Nat → Bool) :
    s.closeBlocks condition = s := by
  have hindents := h.indents
  obtain ⟨rest, position, tokens, indents, keyAllowed, candidate, outer⟩ := s
  obtain rfl : indents = [] := hindents
  rw [Scanner.closeBlocks]
  split
  · rfl
  · simp

/-- A token that can be read is read, and `run` goes on behind it. -/
theorem Flows.run_succ {c : Char} (h : s.Flows depth (c :: cs) ts) (hc : isGraphic c = true)
    (hcomment : c ≠ '#') {s' : Scanner} (htoken : s.fresh.token c cs = some s') (fuel : Nat) :
    s.run (fuel + 1) = s'.run fuel := by
  -- nothing is to be done before the token but to forget stale candidates
  rw [run, skipGap_of_visible h.rest hc hcomment, h.dropStale]
  simp only [Option.bind_eq_bind, Option.bind_some, h.fresh.closeBlocks, h.fresh.rest, htoken]

end

/-! ## Which token comes next -/

section

variable (s : Scanner) (cs : List Char)

/-- A brace opens a mapping, by `flowStart`. -/
theorem token_brace : s.token '\x7b' cs = s.flowStart .flowMappingStart := by
  rw [token, if_neg fun h => Bool.false_ne_true h.2]
  rfl

/-- A closing brace closes the mapping, by `flowEnd`. -/
theorem token_closingBrace : s.token '\x7d' cs = s.flowEnd .flowMappingEnd := by
  rw [token, if_neg fun h => Bool.false_ne_true h.2]
  rfl

/-- A `,` parts the entries of a flow collection. -/
theorem token_comma : s.token ',' cs = s.flowEntry := by
  rw [token, if_neg fun h => Bool.false_ne_true h.2]
  rfl

/-- A double quote starts a scalar that `doubleQuoted` reads. -/
theorem token_quote : s.token '"' cs = s.quoted (doubleQuoted .text) := by
  simp [token, atDocumentMark]

/-- In a flow collection a `:` is the mark of a value, whatever comes behind it. -/
theorem token_colon (h : s.inFlow = true) : s.token ':' cs = s.valueMark := by
  simp [token, atDocumentMark, h]

/-- A word is read as a plain scalar, unless it starts with a `-` that could be something else. -/
theorem token_word {c : Char} (hc : isWordChar c = true)
    (hdash : c = '-' → ∃ d ds, cs = d :: ds ∧ d.isAlphanum = true) : s.token c cs = s.plain := by
  -- a document mark is three dashes or three points
  have hmark : ¬(s.position.column = 0 ∧ atDocumentMark (c :: cs) = true) := by
    rintro ⟨-, hmark⟩
    unfold atDocumentMark at hmark
    split at hmark
    · rename_i heq
      obtain ⟨rfl, htail⟩ := List.cons.inj heq
      obtain ⟨d, ds, rfl, hd⟩ := hdash rfl
      obtain ⟨rfl, -⟩ := List.cons.inj htail
      contradiction
    · rename_i heq
      obtain ⟨rfl, -⟩ := List.cons.inj heq
      contradiction
    · contradiction
  -- a block entry is a dash and a gap
  have hgap : ¬(c = '-' ∧ atGap cs = true) := by
    rintro ⟨rfl, hgap⟩
    obtain ⟨d, ds, rfl, hd⟩ := hdash rfl
    have hgraphic := isGraphic_of_isAlphanum hd
    rw [atGap, isBlank_of_isGraphic hgraphic, isBreak_of_isGraphic hgraphic] at hgap
    contradiction
  have hblank : ¬(isBlank c = true ∨ isIndicator c = true) := by
    rw [isBlank_of_isGraphic (isGraphic_of_isWordChar hc), isIndicator_of_isWordChar hc]
    exact fun h => h.elim Bool.false_ne_true Bool.false_ne_true
  -- and no indicator is a character of a word
  have hother {d : Char} (hd : isWordChar d = false) : c ≠ d := ne_of_class hc hd
  rw [token, if_neg hmark, if_neg (hother rfl), if_neg (hother rfl), if_neg (hother rfl),
    if_neg (hother rfl), if_neg (hother rfl), if_neg hgap, if_neg fun h => hother rfl h.1,
    if_neg fun h => hother rfl h.1, if_neg (hother rfl), if_neg (hother rfl), if_neg hblank]

end

/-! ## Single tokens -/

section

variable {s : Scanner} {depth : Nat} {cs : List Char} {ts : List Token}

/-- `dropCandidate` may forget the innermost candidate, since it is not required. -/
theorem Flows.dropCandidate (h : s.Flows depth cs ts) :
    s.dropCandidate = some { s with candidate := none } := by
  refine if_neg fun hany => ?_
  cases hcandidate : s.candidate with
  | none =>
      rw [hcandidate] at hany
      contradiction
  | some k =>
      rw [hcandidate, Option.any_some, h.optional _ List.mem_cons_self k hcandidate] at hany
      contradiction

/-- `Flows` does not mind what the innermost candidate is, as long as it is not required. -/
theorem Flows.setCandidate (h : s.Flows depth cs ts) {o : Option Candidate}
    (ho : ∀ k ∈ o, k.required = false) : { s with candidate := o }.Flows depth cs ts :=
  ⟨h.rest, h.tokens, h.indents, h.depth,
    List.forall_mem_cons.mpr ⟨ho, fun o ho => h.optional o (List.mem_cons_of_mem _ ho)⟩⟩

/-- `saveCandidate` remembers the place as a candidate where a key may start, and else does nothing.
-/
theorem Flows.saveCandidate (h : s.Flows depth cs ts) :
    ∃ s', s.saveCandidate = some s' ∧ s'.Flows depth cs ts ∧ s'.position = s.position ∧
      (s.keyAllowed = true → s'.candidate = some ⟨ts.length, false, s.position⟩) := by
  rw [Scanner.saveCandidate]
  by_cases hallowed : s.keyAllowed = true
  · -- only the column of an open block makes a key required
    have hrequired : (!s.inFlow && decide (s.indents.head? = some s.position.column)) = false := by
      rw [h.indents]
      exact Bool.and_false _
    refine ⟨{ s with candidate := some ⟨ts.length, false, s.position⟩ }, ?_, h.setCandidate ?_, rfl,
      fun _ => rfl⟩
    · rw [if_pos hallowed, h.dropCandidate, hrequired, ← h.tokens]
      rfl
    · intro k hk
      obtain rfl := Option.some.inj hk
      rfl
  · rw [if_neg hallowed]
    exact ⟨s, rfl, h, rfl, fun h => absurd h hallowed⟩

/-- A token of one character is passed, and the scanner still `Flows`. -/
theorem Flows.pass {c : Char} (h : s.Flows depth (c :: cs) ts) (t : Token) (allowed : Bool) :
    (((s.allowKey allowed).emit t).skip 1).Flows depth cs (ts ++ [t]) := by
  refine ⟨?_, congrArg (· ++ [t]) h.tokens, h.indents, h.depth, h.optional⟩
  change s.rest.drop 1 = cs
  rw [h.rest]
  rfl

/-- A brace takes the scanner one collection further in, where `keyAllowed` is set. -/
theorem Flows.flowStart (h : s.Flows depth ('\x7b' :: cs) ts) :
    ∃ s', s.token '\x7b' cs = some s' ∧
      s'.Flows (depth + 1) cs (ts ++ [.flowMappingStart]) ∧ s'.keyAllowed = true := by
  obtain ⟨s₁, hsave, h₁, -⟩ := h.saveCandidate
  have hopen : { s₁ with candidate := none, outer := s₁.candidate :: s₁.outer }.Flows (depth + 1)
      ('\x7b' :: cs) ts :=
    ⟨h₁.rest, h₁.tokens, h₁.indents, congrArg (· + 1) h₁.depth,
      List.forall_mem_cons.mpr ⟨nofun, h₁.optional⟩⟩
  rw [token_brace, Scanner.flowStart, hsave]
  exact ⟨_, rfl, hopen.pass _ true, rfl⟩

/-- A closing brace takes the scanner out of the innermost collection, to the candidate around it.
-/
theorem Flows.flowEnd (h : s.Flows (depth + 1) ('\x7d' :: cs) ts) :
    ∃ s', s.token '\x7d' cs = some s' ∧ s'.Flows depth cs (ts ++ [.flowMappingEnd]) := by
  obtain ⟨o, outer, houter⟩ := List.exists_cons_of_length_eq_add_one h.depth
  have hoptional := h.optional
  rw [houter] at hoptional
  have hclose : { s with candidate := o, outer }.Flows depth ('\x7d' :: cs) ts :=
    ⟨h.rest, h.tokens, h.indents, by simpa [houter] using h.depth,
      (List.forall_mem_cons.mp hoptional).2⟩
  rw [token_closingBrace, Scanner.flowEnd, h.dropCandidate]
  simp only [Option.bind_eq_bind, Option.bind_some, houter]
  exact ⟨_, rfl, hclose.pass _ false⟩

/-- Behind a `,` a key may start again. -/
theorem Flows.flowEntry (h : s.Flows depth (',' :: cs) ts) :
    ∃ s', s.token ',' cs = some s' ∧ s'.Flows depth cs (ts ++ [.flowEntry]) ∧
      s'.keyAllowed = true := by
  rw [token_comma, Scanner.flowEntry, h.dropCandidate]
  exact ⟨_, rfl, (h.setCandidate (o := none) nofun).pass _ true, rfl⟩

/-- Several characters are passed, and `position` advances by them. -/
theorem Flows.moveTo {cs' : List Char} (h : s.Flows depth (cs' ++ cs) ts) :
    (s.moveTo cs).Flows depth cs ts ∧ (s.moveTo cs).position = s.position.advance cs' := by
  refine ⟨⟨rfl, h.tokens, h.indents, h.depth, h.optional⟩, ?_⟩
  change s.position.advance (s.rest.take (s.rest.length - cs.length)) = _
  rw [h.rest, List.length_append, Nat.add_sub_cancel, List.take_left]

/-- A further token may be made by `emit` without moving. -/
theorem Flows.emit (h : s.Flows depth cs ts) (t : Token) (allowed : Bool) :
    ((s.allowKey allowed).emit t).Flows depth cs (ts ++ [t]) :=
  ⟨h.rest, congrArg (· ++ [t]) h.tokens, h.indents, h.depth, h.optional⟩

/-- A quoted word is one token that is not plain. Where `keyAllowed` is set, the word is a candidate
for a key, and behind it the scanner is on the same line still. -/
theorem Flows.quoted {w : String} (h : s.Flows depth ('"' :: (w.toList ++ '"' :: cs)) ts)
    (hw : ∀ c ∈ w.toList, isWordChar c = true) :
    ∃ s', s.token '"' (w.toList ++ '"' :: cs) = some s' ∧
      s'.Flows depth cs (ts ++ [.scalar false w]) ∧
      (s.keyAllowed = true → s'.candidate = some ⟨ts.length, false, s.position⟩ ∧
        s'.position.line = s.position.line ∧
        s'.position.offset = s.position.offset + (w.toList.length + 2)) := by
  obtain ⟨s₁, hsave, h₁, hposition, hcandidate⟩ := h.saveCandidate
  have hread : doubleQuoted .text (s₁.rest.drop 1) = some (w.toList.map .char, cs) := by
    rw [h₁.rest]
    exact doubleQuoted_word hw cs
  have hsplit : '"' :: (w.toList ++ '"' :: cs) = ('"' :: w.toList ++ ['"']) ++ cs := by simp
  rw [hsplit] at h₁
  obtain ⟨hmoved, hend⟩ := (h₁.emit (.scalar false w) false).moveTo
  have hgraphic : ∀ c ∈ '"' :: w.toList ++ ['"'], isGraphic c = true := by
    rw [List.forall_mem_append, List.forall_mem_cons]
    exact ⟨⟨rfl, fun c hc => isGraphic_of_isWordChar (hw c hc)⟩, List.forall_mem_singleton.mpr rfl⟩
  -- the quotes and the word are visible, so none of them ends the line
  rw [advance_graphic _ hgraphic] at hend
  refine ⟨_, ?_, hmoved, fun hallowed => ⟨hcandidate hallowed, ?_, ?_⟩⟩
  · rw [token_quote, Scanner.quoted, hsave]
    simp only [Option.bind_eq_bind, Option.bind_some, hread, fold_chars, String.ofList_toList]
    rfl
  · rw [hend, ← hposition]
    rfl
  · rw [hend, ← hposition]
    simp [Scanner.emit, Scanner.allowKey]

/-- Inside one collection at least the scanner is `inFlow`. -/
theorem Flows.inFlow (h : s.Flows (depth + 1) cs ts) : s.inFlow = true := by
  obtain ⟨o, outer, houter⟩ := List.exists_cons_of_length_eq_add_one h.depth
  rw [Scanner.inFlow, houter]
  rfl

/-- `insertIdx` at the length of `ts` inserts behind `ts`. -/
theorem insertIdx_length (ts ts' : List Token) (t : Token) :
    (ts ++ ts').insertIdx ts.length t = ts ++ t :: ts' := by
  induction ts with
  | nil => rfl
  | cons t' ts ih => rw [List.cons_append, List.length_cons, List.insertIdx_succ_cons, ih]; rfl

/-- The colon behind a candidate makes it a key: the mark goes in front of the token `t`. -/
theorem Flows.valueMark {t : Token} (h : s.Flows (depth + 1) (':' :: cs) (ts ++ [t]))
    {p : Position} (hcandidate : s.candidate = some ⟨ts.length, false, p⟩) :
    ∃ s', s.token ':' cs = some s' ∧ s'.Flows (depth + 1) cs (ts ++ [.key, t, .value]) := by
  have hkey : { s with candidate := none, tokens := ts ++ [Token.key, t] }.Flows (depth + 1)
      (':' :: cs) (ts ++ [Token.key, t]) :=
    ⟨h.rest, rfl, h.indents, h.depth, (h.setCandidate (o := none) nofun).optional⟩
  have hpass := hkey.pass .value false
  rw [List.append_assoc] at hpass
  refine ⟨_, ?_, hpass⟩
  rw [token_colon _ _ h.inFlow, Scanner.valueMark, hcandidate]
  simp only [h.tokens, insertIdx_length]
  rw [openBlock, hkey.inFlow]
  rfl

/-- A plain word in a flow collection ends at a bracket or a `,`. -/
theorem Flows.plain {e : Char} {w : List Char} (hw : IsPlain w)
    (h : s.Flows (depth + 1) (w ++ e :: cs) ts) (he : isFlowIndicator e = true) :
    ∃ c cs' s', w = c :: cs' ∧ s.token c (cs' ++ e :: cs) = some s' ∧
      s'.Flows (depth + 1) (e :: cs) (ts ++ [.scalar true (String.ofList w)]) := by
  obtain ⟨c, cs', rfl, hdash⟩ := hw.start
  obtain ⟨s₁, hsave, h₁, -⟩ := h.saveCandidate
  have hread := plainFrom_word hw.chars he (s₁.indents.head?.elim 0 (· + 1)) s₁.position.column cs
  obtain ⟨hmoved, -⟩ := (h₁.emit (.scalar true (String.ofList (c :: cs'))) false).moveTo
  refine ⟨c, cs', _, rfl, ?_, hmoved⟩
  -- the dash is looked at with all that comes behind the word
  have hdash' : c = '-' → ∃ d ds, cs' ++ e :: cs = d :: ds ∧ d.isAlphanum = true := by
    intro hc
    obtain ⟨d, ds, rfl, hd⟩ := hdash hc
    exact ⟨d, _, rfl, hd⟩
  rw [token_word _ _ (hw.chars c List.mem_cons_self) hdash', Scanner.plain, hsave]
  simp only [Option.bind_eq_bind, Option.bind_some, h₁.inFlow, h₁.rest, hread, fold_chars]
  rfl

end

/-! ## Runs -/

/-- From one scanner another is reached by passing some characters, with at most as many tokens as
there are characters; so `run` needs no more fuel than that. -/
def Passes (s : Scanner) (cs : List Char) (s' : Scanner) : Prop :=
  ∃ n ≤ cs.length, ∀ fuel, s.run (fuel + n) = s'.run fuel

/-- One pass after the other is a pass: the tokens are appended. -/
theorem Passes.trans {s s' s'' : Scanner} {cs cs' : List Char} (h : s.Passes cs s')
    (h' : s'.Passes cs' s'') : s.Passes (cs ++ cs') s'' := by
  obtain ⟨n, hn, hrun⟩ := h
  obtain ⟨n', hn', hrun'⟩ := h'
  refine ⟨n' + n, ?_, fun fuel => ?_⟩
  · rw [List.length_append]
    omega
  · rw [← Nat.add_assoc, hrun, hrun']

section

variable {s : Scanner} {depth : Nat} {cs : List Char} {ts : List Token}

/-- A token is passed if it can be read once `dropStale` has been applied. -/
theorem Flows.passes {c : Char} (cs' : List Char) (h : s.Flows depth (c :: cs' ++ cs) ts)
    (hc : isGraphic c = true) (hcomment : c ≠ '#') {s' : Scanner}
    (htoken : s.fresh.token c (cs' ++ cs) = some s') : s.Passes (c :: cs') s' :=
  ⟨1, Nat.succ_le_succ (Nat.zero_le _), h.run_succ hc hcomment htoken⟩

/-- A printed text is passed as a scalar. Where `keyAllowed` is set it is a candidate for a key. -/
theorem Flows.text {w : String} (hw : IsWord w)
    (h : s.Flows depth (Json.renderString (Json.piecesOf w) ++ cs) ts) :
    ∃ s', s.Passes (Json.renderString (Json.piecesOf w)) s' ∧
      s'.Flows depth cs (ts ++ [.scalar false w]) ∧
      (s.keyAllowed = true → s'.candidate = some ⟨ts.length, false, s.position⟩ ∧
        s'.position.line = s.position.line ∧
        s'.position.offset = s.position.offset + (w.toList.length + 2)) := by
  rw [Json.renderString_word hw] at h ⊢
  have hquoted := h
  rw [List.append_assoc] at hquoted
  obtain ⟨s', htoken, h', hkey⟩ := hquoted.fresh.quoted hw.chars
  refine ⟨s', h.passes (w.toList ++ ['"']) rfl (by decide) ?_, h', hkey⟩
  rw [List.append_assoc]
  exact htoken

/-- A key and its `:` are passed. The `:` finds the candidate, which is on the same line and within
`reach`. -/
theorem Flows.key {w : String} (hw : IsWord w) (hallowed : s.keyAllowed = true)
    (h : s.Flows (depth + 1) (Json.renderString (Json.piecesOf w) ++ ':' :: cs) ts) :
    ∃ s', s.Passes (Json.renderString (Json.piecesOf w) ++ [':']) s' ∧
      s'.Flows (depth + 1) cs (ts ++ [.key, .scalar false w, .value]) := by
  obtain ⟨s₁, htext, h₁, hkey⟩ := h.text hw
  obtain ⟨hcandidate, hline, hoffset⟩ := hkey hallowed
  have hfresh : s₁.fresh.candidate = some ⟨ts.length, false, s.position⟩ := by
    change s₁.candidate.filter _ = _
    rw [hcandidate]
    have hnear : s₁.position.offset ≤ s.position.offset + Candidate.reach :=
      hoffset ▸ Nat.add_le_add_left hw.short _
    exact if_pos (congrArg not (isStale_of_near hline hnear))
  obtain ⟨s', hcolon, h'⟩ := h₁.fresh.valueMark hfresh
  exact ⟨s', htext.trans (h₁.passes [] rfl (by decide) hcolon), h'⟩

/-- A bracket or a `,` comes next, which ends a plain scalar in a flow collection. -/
def EndsFlow (cs : List Char) : Prop := ∃ e cs', cs = e :: cs' ∧ isFlowIndicator e = true

/-- Behind the value of a member there is a `,` or a brace. -/
theorem endsFlow_membersTail (ms : List (List Json.Piece × Json)) (cs : List Char) :
    EndsFlow (Json.membersTail ms ++ cs) := by
  cases ms with
  | nil => exact ⟨_, _, rfl, rfl⟩
  | cons m ms => exact ⟨_, _, rfl, rfl⟩

/-- A value of JSON is passed inside a flow collection, where `EndsFlow` holds of what comes next.
-/
def Scans (v : Json) : Prop :=
  ∀ {s : Scanner} {depth : Nat} {cs : List Char} {ts : List Token},
    EndsFlow cs → s.Flows (depth + 1) (Json.chars v ++ cs) ts →
    ∃ s', s.Passes (Json.chars v) s' ∧ s'.Flows (depth + 1) cs (ts ++ v.toYaml.flowTokens)

/-- A member is passed: its key, the `:` and the value. -/
theorem Flows.member {k : String} {v : Json} (hk : IsWord k) (hv : Scans v)
    (hallowed : s.keyAllowed = true) (hcs : EndsFlow cs)
    (h : s.Flows (depth + 1)
      (Json.renderString (Json.piecesOf k) ++ ':' :: (Json.chars v ++ cs)) ts) :
    ∃ s', s.Passes (Json.renderString (Json.piecesOf k) ++ ':' :: Json.chars v) s' ∧
      s'.Flows (depth + 1) cs
        (ts ++ .key :: .scalar false k :: .value :: v.toYaml.flowTokens) := by
  obtain ⟨s₁, hkey, h₁⟩ := h.key hk hallowed
  obtain ⟨s₂, hvalue, h₂⟩ := hv hcs h₁
  have hpasses := hkey.trans hvalue
  rw [List.append_assoc] at hpasses h₂
  exact ⟨s₂, hpasses, h₂⟩

/-- The members behind the first one of an object are passed, and the closing brace. -/
theorem Flows.members {ms : List (String × Json)} (hkeys : ∀ m ∈ ms, IsWord m.1)
    (hvalues : ∀ m ∈ ms, Scans m.2)
    (h : s.Flows (depth + 1)
      (Json.membersTail (ms.map fun (key, v) => (Json.piecesOf key, v)) ++ cs) ts) :
    ∃ s', s.Passes (Json.membersTail (ms.map fun (key, v) => (Json.piecesOf key, v))) s' ∧
      s'.Flows depth cs
        (ts ++ pairTokens (ms.map fun (key, v) => (.scalar false key, v.toYaml))) := by
  -- one comma and one member more in each step, and the brace last
  induction ms generalizing s ts with
  | nil =>
      obtain ⟨s', htoken, h'⟩ := h.fresh.flowEnd
      exact ⟨s', h.passes [] rfl (by decide) htoken, h'⟩
  | cons m ms ih =>
      obtain ⟨k, v⟩ := m
      obtain ⟨hk, hkeys⟩ := List.forall_mem_cons.mp hkeys
      obtain ⟨hv, hvalues⟩ := List.forall_mem_cons.mp hvalues
      simp only [List.map_cons, Json.membersTail, List.cons_append, List.append_assoc] at h ⊢
      obtain ⟨s₁, htoken, h₁, hallowed⟩ := h.fresh.flowEntry
      obtain ⟨s₂, hmember, h₂⟩ := h₁.member hk hv hallowed (endsFlow_membersTail _ _)
      obtain ⟨s', hrest, h'⟩ := ih hkeys hvalues h₂
      have hpasses := ((h.passes [] rfl (by decide) htoken).trans hmember).trans hrest
      refine ⟨s', ?_, ?_⟩
      · simpa using hpasses
      · simpa [pairTokens, flowTokens] using h'

/-- An object is passed, whatever comes behind it. -/
theorem Flows.record {ms : List (String × Json)} (hkeys : ∀ m ∈ ms, IsWord m.1)
    (hvalues : ∀ m ∈ ms, Scans m.2) (h : s.Flows depth (Json.chars (.record ms) ++ cs) ts) :
    ∃ s', s.Passes (Json.chars (.record ms)) s' ∧
      s'.Flows depth cs (ts ++ (Json.record ms).toYaml.flowTokens) := by
  rw [Json.toYaml_record]
  -- there is no comma before the first member
  cases ms with
  | nil =>
      obtain ⟨s₁, htoken, h₁, -⟩ := h.fresh.flowStart
      obtain ⟨s', htoken', h'⟩ := h₁.fresh.flowEnd
      have hpasses := (h.passes [] rfl (by decide) htoken).trans
        (h₁.passes [] rfl (by decide) htoken')
      rw [List.append_assoc] at h'
      exact ⟨s', hpasses, h'⟩
  | cons m ms =>
      obtain ⟨k, v⟩ := m
      obtain ⟨hk, hkeys⟩ := List.forall_mem_cons.mp hkeys
      obtain ⟨hv, hvalues⟩ := List.forall_mem_cons.mp hvalues
      simp only [Json.record, List.map_cons, Json.chars, List.cons_append, List.append_assoc]
        at h ⊢
      obtain ⟨s₁, htoken, h₁, hallowed⟩ := h.fresh.flowStart
      obtain ⟨s₂, hmember, h₂⟩ := h₁.member hk hv hallowed (endsFlow_membersTail _ _)
      obtain ⟨s', hrest, h'⟩ := h₂.members hkeys hvalues
      have hpasses := ((h.passes [] rfl (by decide) htoken).trans hmember).trans hrest
      refine ⟨s', ?_, ?_⟩
      · simpa using hpasses
      · simpa [flowTokens] using h'

/-- A plain word is passed as a plain scalar, where `EndsFlow` holds of what comes next. -/
theorem Flows.word {w : List Char} (hw : IsPlain w) (hcs : EndsFlow cs)
    (h : s.Flows (depth + 1) (w ++ cs) ts) :
    ∃ s', s.Passes w s' ∧ s'.Flows (depth + 1) cs (ts ++ [.scalar true (String.ofList w)]) := by
  obtain ⟨e, cs, rfl, he⟩ := hcs
  obtain ⟨c, cs', s', rfl, htoken, h'⟩ := h.fresh.plain hw he
  have hc := hw.chars c List.mem_cons_self
  exact ⟨s', h.passes cs' (isGraphic_of_isWordChar hc) (ne_of_class hc rfl) htoken, h'⟩

end

/-- A number is printed as a plain word; a `-` in it is followed by a digit. -/
theorem isPlain_render (n : Int) : IsPlain (Json.Numeral.ofInt n).render := by
  refine ⟨Json.isWordChar_of_mem_render, ?_⟩
  obtain ⟨d, ds, hds⟩ := List.exists_cons_of_ne_nil (Nat.toDigits_ne_nil (b := 10) (n := n.natAbs))
  have hdigit : d.isDigit = true :=
    Nat.isDigit_of_mem_toDigits (by decide) (by decide) (hds ▸ List.mem_cons_self)
  rw [Json.render_ofInt, hds]
  split
  · refine ⟨_, _, rfl, fun _ => ⟨d, ds, rfl, ?_⟩⟩
    rw [Char.isAlphanum, hdigit, Bool.or_true]
  · refine ⟨d, ds, rfl, ?_⟩
    rintro rfl
    contradiction

/-- Every value that is `Composed` of words is passed. -/
theorem scans_of_composed {v : Json} (h : v.Composed IsWord) : Scans v := by
  induction h with
  -- the two words differ, but neither starts with a dash
  | bool b =>
      intro s depth cs ts hcs h
      cases b with
      | true => exact h.word ⟨List.all_eq_true.mp rfl, _, _, rfl, nofun⟩ hcs
      | false => exact h.word ⟨List.all_eq_true.mp rfl, _, _, rfl, nofun⟩ hcs
  | int n => exact fun hcs h => h.word (isPlain_render n) hcs
  | text hs =>
      intro s depth cs ts hcs h
      obtain ⟨s', htext, h', -⟩ := h.text hs
      rw [Json.toYaml_ofText]
      exact ⟨s', htext, h'⟩
  | record hkeys _ ih => exact fun _ h => h.record hkeys ih

/-! ## Whole texts -/

/-- At the end of the text `run` gives the tokens that were made. -/
theorem Flows.run_nil {s : Scanner} {depth : Nat} {ts : List Token} (h : s.Flows depth [] ts)
    (fuel : Nat) : s.run (fuel + 1) = some ts := by
  have hgap : s.skipGap = s := skipGap_of_gapFrom (by rw [h.rest]; rfl)
  rw [run, hgap, h.dropStale]
  simp only [Option.bind_eq_bind, Option.bind_some, h.fresh.closeBlocks, h.fresh.rest, finish,
    h.fresh.dropCandidate, h.fresh.tokens, Option.pure_def]

/-- A scanner that `Passes` the whole text has fuel enough for it. -/
theorem Passes.run {s s' : Scanner} {cs : List Char} (h : s.Passes cs s') {depth : Nat}
    {ts : List Token} (h' : s'.Flows depth [] ts) : s.run (cs.length + 1) = some ts := by
  obtain ⟨n, hn, hrun⟩ := h
  have hfuel : cs.length + 1 = (cs.length - n + 1) + n := by omega
  rw [hfuel, hrun, h'.run_nil]

end Scanner

section

variable {ms : List (String × Json)} (hkeys : ∀ m ∈ ms, IsWord m.1)
  (hvalues : ∀ m ∈ ms, m.2.Composed IsWord)
include hkeys hvalues

/-- `Token.scan` cuts the printed text of a record composed of words into the tokens of its value in
YAML. -/
theorem scan_chars : Token.scan (Json.chars (.record ms)) =
    some (Json.record ms).toYaml.flowTokens := by
  have hgraphic := Json.isGraphic_of_mem_chars (.record hkeys hvalues)
  have hprintable : (Json.chars (.record ms)).all isPrintable = true :=
    List.all_eq_true.mpr fun c hc => isPrintable_of_isGraphic (hgraphic c hc)
  have hstart : ({ rest := Json.chars (.record ms) } : Scanner).Flows 0
      (Json.chars (.record ms) ++ []) [] :=
    ⟨(List.append_nil _).symm, rfl, rfl, rfl, List.forall_mem_singleton.mpr nofun⟩
  obtain ⟨s', hpasses, h'⟩ :=
    hstart.record hkeys fun m hm => Scanner.scans_of_composed (hvalues m hm)
  rw [Token.scan, if_pos hprintable, lineFeeds_graphic hgraphic]
  exact hpasses.run h'

/-- What `Json.render` prints, `Yaml.parse` reads, if it is a record composed of words. -/
theorem parse_render : parse (Json.render (.record ms)) = some (Json.record ms).toYaml := by
  rw [parse, Json.render, String.toList_ofList, scan_chars hkeys hvalues]
  change (content _ _).bind _ = _
  rw [content_flowTokens]
  rfl

end

end Yaml

end ShaderCompat
