import ShaderCompat.Proofs.Json.Printing
import ShaderCompat.Yaml.Token

/-!
# Words

A word is made of letters, digits, underscores and hyphens, which are the same to every reader:
JSON writes a word as it is, and YAML reads it as it stands, in quotes and plainly. Whatever is
composed of words and numbers is printed with visible characters of ASCII alone.
-/

namespace ShaderCompat

namespace Yaml

/-- Whether a character is a visible one of ASCII, from `!` to `~`. -/
def isGraphic (c : Char) : Bool := '!' ≤ c && c ≤ '~'

/-- Whether a character may stand in a word: a letter, a digit, `_` or `-`. -/
def isWordChar (c : Char) : Bool := c.isAlphanum || c = '_' || c = '-'

/-- A text that is a word, and with its quotes no longer than `Candidate.reach`, so short enough for
a key. -/
structure IsWord (s : String) : Prop where
  chars : ∀ c ∈ s.toList, isWordChar c = true
  short : s.toList.length + 2 ≤ Candidate.reach

instance (s : String) : Decidable (IsWord s) :=
  decidable_of_iff (s.toList.all isWordChar = true ∧ s.toList.length + 2 ≤ Candidate.reach)
    ⟨fun h => ⟨List.all_eq_true.mp h.1, h.2⟩, fun h => ⟨List.all_eq_true.mpr h.chars, h.short⟩⟩

/-! ## Characters -/

/-- A character of a class `p` is none that is not in the class. -/
theorem ne_of_class {p : Char → Bool} {c d : Char} (hc : p c = true) (hd : p d = false) :
    c ≠ d := by
  rintro rfl
  rw [hc] at hd
  contradiction

/-- `isGraphic` by the numbers of the characters. -/
theorem isGraphic_iff {c : Char} : isGraphic c = true ↔ 33 ≤ c.toNat ∧ c.toNat ≤ 126 := by
  rw [isGraphic, Bool.and_eq_true, decide_eq_true_iff, decide_eq_true_iff]
  rfl

/-- Letters and digits are visible (`isGraphic`). -/
theorem isGraphic_of_isAlphanum {c : Char} (h : c.isAlphanum = true) : isGraphic c = true := by
  have hclass : (c.isUpper || c.isLower || c.isDigit) = true := h
  rw [Bool.or_eq_true, Bool.or_eq_true] at hclass
  rw [isGraphic_iff]
  -- each of the three ranges lies inside that of `isGraphic`
  rcases hclass with (hupper | hlower) | hdigit
  · have hrange : 'A'.val ≤ c.val ∧ c.val ≤ 'Z'.val := of_decide_eq_true hupper
    have hnat : 65 ≤ c.toNat ∧ c.toNat ≤ 90 := hrange
    omega
  · obtain ⟨hlow, hhigh⟩ := Bool.and_eq_true_iff.mp hlower
    have hrange : 'a'.val ≤ c.val ∧ c.val ≤ 'z'.val :=
      ⟨of_decide_eq_true hlow, of_decide_eq_true hhigh⟩
    have hnat : 97 ≤ c.toNat ∧ c.toNat ≤ 122 := hrange
    omega
  · have hnat : 48 ≤ c.toNat ∧ c.toNat ≤ 57 := Char.isDigit_iff_toNat.mp hdigit
    omega

/-- All characters of words are visible. -/
theorem isGraphic_of_isWordChar {c : Char} (h : isWordChar c = true) : isGraphic c = true := by
  simp only [isWordChar, Bool.or_eq_true, decide_eq_true_eq] at h
  rcases h with (h | rfl) | rfl
  · exact isGraphic_of_isAlphanum h
  · decide
  · decide

section Graphic

variable {c : Char} (h : isGraphic c = true)
include h

/-- A visible character ends no line. -/
theorem isBreak_of_isGraphic : isBreak c = false := by
  simp [isBreak, ne_of_class h (d := '\n') rfl, ne_of_class h (d := '\u2028') rfl,
    ne_of_class h (d := '\u2029') rfl]

/-- A visible character is no blank. -/
theorem isBlank_of_isGraphic : isBlank c = false := by
  simp [isBlank, ne_of_class h (d := ' ') rfl, ne_of_class h (d := '\t') rfl]

/-- A visible character is one byte long. -/
theorem utf8Size_of_isGraphic : c.utf8Size = 1 := by
  have hle := (isGraphic_iff.mp h).2
  exact Char.utf8Size_eq_one_iff.mpr (UInt32.le_iff_toNat_le.mpr (Nat.le_trans hle (by decide)))

/-- YAML allows every visible character. -/
theorem isPrintable_of_isGraphic : isPrintable c = true := by
  have hge : ' ' ≤ c := Nat.le_trans (by decide) (isGraphic_iff.mp h).1
  have hle : c ≤ '~' := (isGraphic_iff.mp h).2
  simp [isPrintable, hge, hle]

end Graphic

section WordChar

variable {c : Char} (h : isWordChar c = true)
include h

/-- No character of a word is a bracket or a comma. -/
theorem isFlowIndicator_of_isWordChar : isFlowIndicator c = false := by
  simp [isFlowIndicator, ne_of_class h (d := ',') rfl, ne_of_class h (d := '[') rfl,
    ne_of_class h (d := ']') rfl, ne_of_class h (d := '\x7b') rfl, ne_of_class h (d := '\x7d') rfl]

/-- No character of a word is an indicator; the hyphen, which may start a block entry, is none to
`isIndicator`. -/
theorem isIndicator_of_isWordChar : Scanner.isIndicator c = false := by
  rw [Scanner.isIndicator, isFlowIndicator_of_isWordChar h, Bool.false_or,
    Bool.eq_false_iff]
  intro hmem
  have hnone : ∀ d ∈ "#&*!|>'\"%@\x60".toList, (!isWordChar d) = true := List.all_eq_true.mp rfl
  have hc := hnone c (List.contains_iff_mem.mp hmem)
  rw [h] at hc
  exact Bool.false_ne_true hc

end WordChar

/-! ## Visible texts -/

/-- Visible characters stay on the line, and count alike for `offset` and `column`. -/
theorem advance_graphic (p : Position) {cs : List Char} (h : ∀ c ∈ cs, isGraphic c = true) :
    p.advance cs = ⟨p.offset + cs.length, p.line, p.column + cs.length⟩ := by
  induction cs generalizing p with
  | nil => rfl
  | cons c cs ih =>
      obtain ⟨hc, hcs⟩ := List.forall_mem_cons.mp h
      have hafter : p.after c = ⟨p.offset + 1, p.line, p.column + 1⟩ := by
        rw [Position.after, isBreak_of_isGraphic hc, utf8Size_of_isGraphic hc]
        rfl
      have hrest := ih (p.after c) hcs
      rw [Position.advance, List.foldl_cons, ← Position.advance, hrest, hafter]
      simp only [List.length_cons, Position.mk.injEq, true_and]
      omega

/-- In a visible text `lineFeeds` finds no line end. -/
theorem lineFeeds_graphic {cs : List Char} (h : ∀ c ∈ cs, isGraphic c = true) :
    lineFeeds cs = cs := by
  induction cs with
  | nil => rfl
  | cons c cs ih =>
      obtain ⟨hc, hcs⟩ := List.forall_mem_cons.mp h
      have hreturn : c ≠ '\r' := ne_of_class hc rfl
      have hnext : c ≠ '\x85' := ne_of_class hc rfl
      rw [lineFeeds, ih hcs, if_neg (not_or.mpr ⟨hreturn, hnext⟩)]
      exact fun _ h _ => hreturn h

/-! ## Reading words -/

/-- A scalar without blanks and line ends is folded into its characters by `fold`. -/
theorem fold_chars (cs : List Char) : fold (cs.map .char) = String.ofList cs := by
  rw [fold]
  congr 1
  induction cs with
  | nil => rfl
  | cons c cs ih =>
      rw [List.map_cons, foldFrom, ih]
      rfl

/-- `doubleQuoted` reads a word up to the closing quote. -/
theorem doubleQuoted_word {cs : List Char} (h : ∀ c ∈ cs, isWordChar c = true) (rest : List Char) :
    doubleQuoted .text (cs ++ '"' :: rest) = some (cs.map .char, rest) := by
  induction cs with
  | nil => rfl
  -- no character of a word is a quote, a backslash, a line end or a blank
  | cons c cs ih =>
      obtain ⟨hc, hcs⟩ := List.forall_mem_cons.mp h
      have hquote : c ≠ '"' := ne_of_class hc rfl
      have hslash : c ≠ '\\' := ne_of_class hc rfl
      have hbreak := isBreak_of_isGraphic (isGraphic_of_isWordChar hc)
      have hblank := isBlank_of_isGraphic (isGraphic_of_isWordChar hc)
      have hchar : Element.ofChar c = .char c := by
        rw [Element.ofChar, hbreak, hblank]
        rfl
      rw [List.cons_append, doubleQuoted, if_neg hquote, if_neg hslash, endsDocument, hbreak,
        ih hcs, hchar]
      rfl

/-- What is no `:` is no stray one. -/
theorem atStrayColon_of_ne {c : Char} (h : c ≠ ':') (cs : List Char) :
    atStrayColon (c :: cs) = false := by
  unfold atStrayColon
  split
  · rename_i heq
    exact absurd (List.cons.inj heq).1 h
  · rfl

/-- In a flow collection a plain scalar ends at a bracket or a `,`, colons apart. -/
theorem atPlainEnd_of_ne {c : Char} (h : c ≠ ':') (cs : List Char) :
    atPlainEnd true (c :: cs) = isFlowIndicator c := by
  unfold atPlainEnd
  split
  · rename_i heq
    exact absurd (List.cons.inj heq).1 h
  · rename_i heq
    rw [(List.cons.inj heq).1, Bool.true_and]
  · contradiction

/-- Where a plain scalar in a flow collection has not come to a gap, it ends at a bracket or a
comma, and goes on otherwise. -/
theorem plainFrom_cons {c : Char} (hbreak : isBreak c = false) (hblank : isBlank c = false)
    (hcolon : c ≠ ':') (indent column : Nat) (cs : List Char) :
    plainFrom ⟨true, indent⟩ .nothing column (c :: cs) =
      if isFlowIndicator c then some ([], c :: cs, false)
      else (plainFrom ⟨true, indent⟩ .nothing (column + 1) cs).map
        fun (es, rest) => (.char c :: es, rest) := by
  rw [plainFrom, hbreak, hblank, atStrayColon_of_ne hcolon, atPlainEnd_of_ne hcolon,
    if_neg Bool.false_ne_true, if_neg Bool.false_ne_true, if_neg fun h => h.1 rfl,
    if_neg fun h => Bool.false_ne_true h.2]
  rfl

/-- `plainFrom` reads a word in a flow collection up to the bracket or `,` behind it. -/
theorem plainFrom_word {cs : List Char} (h : ∀ c ∈ cs, isWordChar c = true) {e : Char}
    (he : isFlowIndicator e = true) (indent column : Nat) (rest : List Char) :
    plainFrom ⟨true, indent⟩ .nothing column (cs ++ e :: rest) =
      some (cs.map .char, e :: rest, false) := by
  induction cs generalizing column with
  | nil =>
      have hcases := he
      simp only [isFlowIndicator, Bool.or_eq_true, decide_eq_true_eq] at hcases
      -- a bracket or a comma is none of the others that could end it
      have hgap : isBreak e = false ∧ isBlank e = false ∧ e ≠ ':' := by
        rcases hcases with (((rfl | rfl) | rfl) | rfl) | rfl <;> decide
      rw [List.nil_append, plainFrom_cons hgap.1 hgap.2.1 hgap.2.2, if_pos he]
      rfl
  | cons c cs ih =>
      obtain ⟨hc, hcs⟩ := List.forall_mem_cons.mp h
      have hgraphic := isGraphic_of_isWordChar hc
      rw [List.cons_append, plainFrom_cons (isBreak_of_isGraphic hgraphic)
        (isBlank_of_isGraphic hgraphic) (ne_of_class hc rfl),
        if_neg (Bool.eq_false_iff.mp (isFlowIndicator_of_isWordChar hc)), ih hcs]
      rfl

end Yaml

namespace Json

open Yaml

/-! ## Printing words -/

/-- A character of a word needs no `escape`. -/
theorem escape_word {c : Char} (h : isWordChar c = true) : escape c = [c] := by
  have hgraphic := isGraphic_of_isWordChar h
  have hvisible : ¬c < ' ' :=
    Nat.not_lt.mpr (Nat.le_trans (by decide) (isGraphic_iff.mp hgraphic).1)
  unfold escape
  split
  case h_8 => exact if_neg hvisible
  all_goals exact absurd h (by decide)

/-- `renderString` puts a word between quotes as it stands. -/
theorem renderString_word {s : String} (h : IsWord s) :
    renderString (piecesOf s) = '"' :: s.toList ++ ['"'] := by
  have hpieces : ∀ cs : List Char, (∀ c ∈ cs, isWordChar c = true) →
      (cs.map Piece.char).flatMap Piece.render = cs := by
    intro cs hcs
    induction cs with
    | nil => rfl
    | cons c cs ih =>
        obtain ⟨hc, hcs⟩ := List.forall_mem_cons.mp hcs
        rw [List.map_cons, List.flatMap_cons, ih hcs, Piece.render, escape_word hc]
        rfl
  rw [renderString, piecesOf, hpieces _ h.chars]

/-- Digits may stand in words. -/
theorem isWordChar_of_isDigit {c : Char} (h : c.isDigit = true) : isWordChar c = true := by
  rw [isWordChar, Char.isAlphanum, h, Bool.or_true]
  rfl

/-- A whole number is printed as its digits, with `-` in front if it is negative. -/
theorem render_ofInt (n : Int) :
    (Numeral.ofInt n).render = (if n < 0 then ['-'] else []) ++ Nat.toDigits 10 n.natAbs := by
  rw [Numeral.render, Numeral.ofInt, List.append_nil]
  simp only [decide_eq_true_eq]

/-- A whole number is printed as a word. -/
theorem isWordChar_of_mem_render {n : Int} :
    ∀ c ∈ (Numeral.ofInt n).render, isWordChar c = true := by
  rw [render_ofInt, List.forall_mem_append]
  constructor
  · split
    · exact List.forall_mem_singleton.mpr rfl
    · exact List.forall_mem_nil _
  · intro c hc
    exact isWordChar_of_isDigit (Nat.isDigit_of_mem_toDigits (by decide) (by decide) hc)

/-- A word in quotes is visible. -/
theorem isGraphic_of_mem_renderString {s : String} (h : IsWord s) :
    ∀ c ∈ renderString (piecesOf s), isGraphic c = true := by
  rw [renderString_word h, List.forall_mem_append, List.forall_mem_cons]
  exact ⟨⟨rfl, fun c hc => isGraphic_of_isWordChar (h.chars c hc)⟩,
    List.forall_mem_singleton.mpr rfl⟩

/-- The members behind the first one are visible, if their values are. -/
theorem isGraphic_of_mem_membersTail {ms : List (String × Json)} (hkeys : ∀ m ∈ ms, IsWord m.1)
    (h : ∀ m ∈ ms, ∀ c ∈ chars m.2, isGraphic c = true) :
    ∀ c ∈ membersTail (ms.map fun (key, v) => (piecesOf key, v)), isGraphic c = true := by
  induction ms with
  | nil => exact List.forall_mem_singleton.mpr rfl
  | cons m ms ih =>
      obtain ⟨k, v⟩ := m
      obtain ⟨hk, hkeys⟩ := List.forall_mem_cons.mp hkeys
      obtain ⟨hv, hms⟩ := List.forall_mem_cons.mp h
      simp only [List.map_cons, membersTail, List.cons_append, List.forall_mem_cons,
        List.forall_mem_append]
      exact ⟨rfl, ⟨isGraphic_of_mem_renderString hk, rfl, hv⟩, ih hkeys hms⟩

/-- Values that are `Composed` of words are printed with visible characters. -/
theorem isGraphic_of_mem_chars {v : Json} (h : v.Composed IsWord) :
    ∀ c ∈ chars v, isGraphic c = true := by
  induction h with
  | bool b =>
      cases b with
      | true => exact List.all_eq_true.mp rfl
      | false => exact List.all_eq_true.mp rfl
  | int n => exact fun c hc => isGraphic_of_isWordChar (isWordChar_of_mem_render c hc)
  | text h => exact isGraphic_of_mem_renderString h
  | @record ms hkeys _ ih =>
      cases ms with
      | nil => exact List.all_eq_true.mp rfl
      | cons m ms =>
          obtain ⟨k, v⟩ := m
          obtain ⟨hk, hkeys⟩ := List.forall_mem_cons.mp hkeys
          obtain ⟨hv, hms⟩ := List.forall_mem_cons.mp ih
          simp only [record, List.map_cons, chars, List.cons_append, List.forall_mem_cons,
            List.forall_mem_append]
          exact ⟨rfl, ⟨isGraphic_of_mem_renderString hk, rfl, hv⟩,
            isGraphic_of_mem_membersTail hkeys hms⟩

end Json

end ShaderCompat
