import ShaderCompat.Json.Printer
import ShaderCompat.Proofs.Json.Reading

/-!
# What is printed is written

The values that the library prints are made of truth values, integers, texts and records. The
printer gives every such value a text of the grammar (`Composed.writtenAs`), so it is read back as
the value it was (`Composed.parse_render`). A text keeps its characters: the few that may not stand
for themselves are escaped.
-/

namespace ShaderCompat.Json

/-! ## Digits -/

/-- `hexDigit` prints the last digit of a number in base sixteen. -/
theorem digit?_hexDigit (n : Nat) : Radix.digit? 16 (hexDigit n) = some (n % 16) := by
  have h : ∀ d < 16, Radix.digit? 16 (Nat.digitChar d) = some d := by decide
  exact h (n % 16) (Nat.mod_lt n (by decide))

/-- An escape of four digits names the `unit` it was made for. -/
theorem unitDigits_hexDigit {unit : Nat} (h : unit < 0x10000) :
    UnitDigits [hexDigit (unit / 0x1000), hexDigit (unit / 0x100), hexDigit (unit / 0x10),
      hexDigit unit] unit := by
  refine ⟨rfl, ?_⟩
  simp only [Radix.number?, List.foldlM_cons, List.foldlM_nil, digit?_hexDigit, Option.map_some,
    Option.bind_eq_bind, Option.bind_some, Option.pure_def]
  congr 1
  omega

/-- `Nat.toDigits` prints a number without a needless zero in front. -/
theorem toDigits_head {n : Nat} (h : (Nat.toDigits 10 n).head? = some '0') :
    Nat.toDigits 10 n = ['0'] := by
  induction n using Nat.strongRecOn with
  | ind n ih =>
      -- the first digit is that of the number without its last digit, down to a single digit
      by_cases hlt : n < 10
      · rw [Nat.toDigits_of_lt_base hlt] at h ⊢
        exact congrArg (· :: []) (Option.some.inj h)
      · have hle : 10 ≤ n := Nat.le_of_not_lt hlt
        rw [Nat.toDigits_of_base_le (by decide) hle] at h
        have hhead : (Nat.toDigits 10 (n / 10)).head? = some '0' := by
          obtain ⟨d, ds, hds⟩ := List.exists_cons_of_ne_nil (Nat.toDigits_ne_nil (n := n / 10))
          rw [hds] at h ⊢
          exact h
        -- the number without its last digit is not zero
        have hzero := ih (n / 10) (by omega) hhead
        have hvalue : n / 10 = 0 := by
          rw [← Nat.ofDigitChars_ten_toDigits (n := n / 10), hzero]
          rfl
        omega

/-- So what it prints are `WholeDigits`. -/
theorem wholeDigits_toDigits (n : Nat) : WholeDigits (Nat.toDigits 10 n) :=
  ⟨⟨Nat.toDigits_ne_nil, fun _ hc => Nat.isDigit_of_mem_toDigits (by decide) (by decide) hc⟩,
    toDigits_head⟩

/-- An integer is printed as the grammar has it, with neither fraction nor exponent. -/
theorem written_ofInt (n : Int) : (Numeral.ofInt n).Written (Numeral.ofInt n).render := by
  have h : Numeral.Written
      ⟨n < 0, Nat.ofDigitChars 10 (Nat.toDigits 10 n.natAbs) 0, [] ++ []⟩
      ((if decide (n < 0) then ['-'] else []) ++ Nat.toDigits 10 n.natAbs ++ [] ++ []) :=
    .mk (wholeDigits_toDigits n.natAbs) .absent .absent
  rw [Nat.ofDigitChars_ten_toDigits, List.append_nil, List.append_nil, List.append_nil] at h
  rw [Numeral.render, Numeral.ofInt, List.append_nil]
  exact h

/-! ## Strings -/

/-- The printer's escapes are among those of the grammar. -/
theorem spelled_escape (c : Char) {cs : List Char} {ps : List Piece} (h : Spelled cs ps) :
    Spelled (escape c ++ cs) (.char c :: ps) := by
  unfold escape
  split
  -- the last case of `escape`: a control character is named by its unit, any other stands for
  -- itself
  case h_8 hquote hslash _ _ _ _ _ =>
    by_cases hcontrol : c < ' '
    · rw [if_pos hcontrol]
      have hlt : c.toNat < 32 := hcontrol
      have hwhole : isHalf c.toNat = false := by
        simp only [isHalf, isHighHalf, isLowHalf, Bool.or_eq_false_iff, Bool.and_eq_false_iff,
          decide_eq_false_iff_not]
        omega
      have hunit := Spelled.unit (unitDigits_hexDigit (Nat.lt_trans hlt (by decide))) hwhole h
      rw [Char.ofNat_toNat] at hunit
      exact hunit
    · rw [if_neg hcontrol]
      exact .char hcontrol hquote hslash h
  all_goals exact .short rfl h

/-- A text is printed as the grammar spells it. -/
theorem spelled_render (s : String) :
    Spelled ((piecesOf s).flatMap Piece.render) (piecesOf s) := by
  unfold piecesOf
  induction s.toList with
  | nil => exact .nil
  | cons c cs ih => exact spelled_escape c ih

/-- A key is printed without blanks around it. -/
theorem keyWritten_render (k : String) :
    KeyWritten (piecesOf k) (renderString (piecesOf k) ++ [':']) := by
  have h : KeyWritten (piecesOf k)
      ([] ++ '"' :: (piecesOf k).flatMap Piece.render ++ '"' :: [] ++ [':']) :=
    .mk (List.forall_mem_nil _) (spelled_render k) (List.forall_mem_nil _)
  simpa [renderString] using h

/-! ## Values -/

/-- The values that are made of truth values, integers, texts and records, where the texts and the
keys are `allowed`. -/
inductive Composed (allowed : String → Prop) : Json → Prop where
  | bool (b : Bool) : Composed allowed (.bool b)
  | int (n : Int) : Composed allowed (.ofInt n)
  | text {s : String} (h : allowed s) : Composed allowed (.ofText s)
  | record {ms : List (String × Json)} (hkeys : ∀ m ∈ ms, allowed m.1)
      (h : ∀ m ∈ ms, Composed allowed m.2) : Composed allowed (.record ms)

/-- The members behind the first one are printed as the grammar has them, if their values are. -/
theorem written_membersTail {ms : List (String × Json)}
    (h : ∀ m ∈ ms, (Phrase.value m.2).Written (chars m.2)) :
    (Phrase.members (ms.map fun (key, v) => (piecesOf key, v))).Written
      (membersTail (ms.map fun (key, v) => (piecesOf key, v))) := by
  induction ms with
  | nil => exact .noMember
  | cons m ms ih =>
      obtain ⟨k, v⟩ := m
      obtain ⟨hv, hms⟩ := List.forall_mem_cons.mp h
      have hwritten := Phrase.Written.member (keyWritten_render k) hv (ih hms)
      rw [List.map_cons, membersTail]
      simpa using hwritten

/-- Every `Composed` value is printed as the grammar has it. -/
theorem Composed.written {allowed : String → Prop} {v : Json} (h : Composed allowed v) :
    (Phrase.value v).Written (chars v) := by
  induction h with
  | bool b =>
      cases b with
      | true => exact .true
      | false => exact .false
  | int n => exact .number (written_ofInt n)
  | @text s _ => exact .string (spelled_render s)
  | @record ms _ _ ih =>
      -- an empty object is a case of its own in the grammar, as it is for the printer
      cases ms with
      | nil => exact .emptyObject .noMember
      | cons m ms =>
          obtain ⟨k, v⟩ := m
          obtain ⟨hv, hms⟩ := List.forall_mem_cons.mp ih
          have hwritten := Phrase.Written.object (keyWritten_render k) hv (written_membersTail hms)
          rw [Json.record, List.map_cons, chars]
          simpa using hwritten

/-- The same of the whole text, with no blanks behind it. -/
theorem Composed.writtenAs {allowed : String → Prop} {v : Json} (h : Composed allowed v) :
    v.WrittenAs (render v) := by
  refine ⟨chars v, [], ?_, h.written, List.forall_mem_nil _⟩
  rw [render, String.toList_ofList, List.append_nil]

/-- A value that the library prints is read back from its text by `parse`. -/
theorem Composed.parse_render {allowed : String → Prop} {v : Json} (h : Composed allowed v) :
    parse (render v) = some v :=
  parse_of_writtenAs h.writtenAs

end ShaderCompat.Json
