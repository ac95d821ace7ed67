import ShaderCompat.Proofs.Json.Grammar

/-!
# Reading what the grammar writes

The reader takes in every text that the grammar has for a value, and takes it for that value
(`parse_of_writtenAs`). The parts come first: strings, numbers, keys. A number ends where the text
goes on with something that no number has, so what is said of a value depends on what comes behind
it.

The reader has fuel for its recursion, and no phrase needs more of it than it has characters.
-/

namespace ShaderCompat.Json

/-! ## Blanks -/

/-- `skipBlanks` passes over a blank in front. -/
theorem skipBlanks_cons_of_blank {b : Char} (hb : isBlank b = true) (cs : List Char) :
    skipBlanks (b :: cs) = skipBlanks cs :=
  List.dropWhile_cons_of_pos hb

/-- `skipBlanks` stops at the first character that is not blank. -/
theorem skipBlanks_cons_of_not_blank {c : Char} (hc : isBlank c = false) (cs : List Char) :
    skipBlanks (c :: cs) = c :: cs :=
  List.dropWhile_cons_of_neg (Bool.eq_false_iff.mp hc)

/-- `skipBlanks` passes over any number of blanks in front. -/
theorem skipBlanks_append {bs : List Char} (hbs : ∀ b ∈ bs, isBlank b = true) (cs : List Char) :
    skipBlanks (bs ++ cs) = skipBlanks cs :=
  List.dropWhile_append_of_pos hbs

/-- After `skipBlanks` there is no blank left in front. -/
theorem skipBlanks_skipBlanks (cs : List Char) : skipBlanks (skipBlanks cs) = skipBlanks cs := by
  induction cs with
  | nil => rfl
  | cons c cs ih =>
      cases hc : isBlank c with
      | true => rw [skipBlanks_cons_of_blank hc, ih]
      | false => rw [skipBlanks_cons_of_not_blank hc, skipBlanks_cons_of_not_blank hc]

/-! ## Strings -/

/-- A character that stands for itself is one piece, a `char`. -/
theorem pieces_char {c : Char} (hcontrol : ¬c < ' ') (hquote : c ≠ '"') (hescape : c ≠ '\\')
    (cs : List Char) :
    pieces (c :: cs) = (pieces cs).map fun (ps, rest) => (.char c :: ps, rest) := by
  rw [pieces, if_neg hcontrol]
  · exact hquote
  · intro _ _ _ _ _ h
    exact absurd h hescape
  · intro _ _ h
    exact absurd h hescape

/-- An escape of two characters is the one piece that `unescape?` has for it. -/
theorem pieces_short {e c : Char} (he : unescape? e = some c) (cs : List Char) :
    pieces ('\\' :: e :: cs) = (pieces cs).map fun (ps, rest) => (.char c :: ps, rest) := by
  rw [pieces, he]
  · cases pieces cs <;> rfl
  · rintro _ _ _ _ _ rfl
    exact absurd he (Option.some_ne_none _).symm

/-- Four hexadecimal digits behind `\u` are the piece of the unit that they write. -/
theorem pieces_unit {ds : List Char} {unit : Nat} (hunit : UnitDigits ds unit) (cs : List Char) :
    pieces ('\\' :: 'u' :: ds ++ cs) =
      (pieces cs).map fun (ps, rest) => (.ofUnit unit :: ps, rest) := by
  obtain ⟨hlength, hnumber⟩ := hunit
  obtain ⟨a, b, c, d, rfl⟩ : ∃ a b c d, ds = [a, b, c, d] := by
    match ds, hlength with
    | [a, b, c, d], _ => exact ⟨a, b, c, d, rfl⟩
  show pieces ('\\' :: 'u' :: a :: b :: c :: d :: cs) = _
  rw [pieces, hnumber]
  cases pieces cs <;> rfl

/-- `joinHalves` leaves characters alone. -/
theorem joinHalves_char (c : Char) (ps : List Piece) :
    joinHalves (.char c :: ps) = .char c :: joinHalves ps := by
  rw [joinHalves]
  intro _ _ _ h
  exact absurd h (by simp)

/-- A `half` that is no high half is not the first of a pair. -/
theorem joinHalves_half_of_not_high {unit : Nat} (h : isHighHalf unit = false) (ps : List Piece) :
    joinHalves (.half unit :: ps) = .half unit :: joinHalves ps := by
  rcases ps with _ | ⟨_ | low, ps⟩
  · rfl
  · rfl
  · rw [joinHalves, h, Bool.false_and, if_neg Bool.false_ne_true]

/-- The two ranges of halves do not meet. -/
theorem not_high_of_low {unit : Nat} (h : isLowHalf unit = true) : isHighHalf unit = false := by
  simp only [isLowHalf, isHighHalf, Bool.and_eq_true, decide_eq_true_eq, Bool.and_eq_false_iff,
    decide_eq_false_iff_not] at h ⊢
  omega

/-- A `half` of a surrogate pair stays as it is unless it is the first of two. -/
theorem joinHalves_half_of_alone {unit : Nat} {ps : List Piece}
    (halone : ∀ low rest, joinHalves ps = .half low :: rest →
      ¬(isHighHalf unit = true ∧ isLowHalf low = true)) :
    joinHalves (.half unit :: ps) = .half unit :: joinHalves ps := by
  rcases ps with _ | ⟨_ | low, ps⟩
  · rfl
  · rfl
  · by_cases hpair : isHighHalf unit = true ∧ isLowHalf low = true
    · exact absurd hpair (halone low _ (joinHalves_half_of_not_high (not_high_of_low hpair.2) ps))
    · rw [joinHalves, if_neg fun h => hpair (Bool.and_eq_true_iff.mp h)]

/-- A unit outside the surrogates is a `char`. -/
theorem ofUnit_of_whole {unit : Nat} (h : isHalf unit = false) :
    Piece.ofUnit unit = .char (Char.ofNat unit) := if_neg (Bool.eq_false_iff.mp h)

/-- A surrogate is kept as a `half` by `ofUnit`. -/
theorem ofUnit_of_half {unit : Nat} (h : isHalf unit = true) : Piece.ofUnit unit = .half unit :=
  if_pos h

/-- `pieces` reads each escape as a piece of its own, and then `joinHalves` puts the halves
together. -/
theorem exists_pieces_of_spelled {cs : List Char} {ps : List Piece} (h : Spelled cs ps)
    (rest : List Char) :
    ∃ raw, pieces (cs ++ '"' :: rest) = some (raw, rest) ∧ joinHalves raw = ps := by
  -- the pieces as they stand in the text (`raw`) are carried along, since joining comes after
  induction h with
  | nil => exact ⟨[], by rw [List.nil_append, pieces], rfl⟩
  | char hcontrol hquote hescape _ ih =>
      obtain ⟨raw, hraw, rfl⟩ := ih
      refine ⟨_, ?_, joinHalves_char _ raw⟩
      rw [List.cons_append, pieces_char hcontrol hquote hescape, hraw]
      rfl
  | short he _ ih =>
      obtain ⟨raw, hraw, rfl⟩ := ih
      refine ⟨_, ?_, joinHalves_char _ raw⟩
      rw [List.cons_append, List.cons_append, pieces_short he, hraw]
      rfl
  | @unit ds cs unit ps hunit hwhole _ ih =>
      obtain ⟨raw, hraw, rfl⟩ := ih
      refine ⟨_, ?_, joinHalves_char _ raw⟩
      rw [List.append_assoc, pieces_unit hunit, hraw, ofUnit_of_whole hwhole]
      rfl
  | @pair ds ds' cs high low ps hhigh hlow hishigh hislow _ ih =>
      obtain ⟨raw, hraw, rfl⟩ := ih
      refine ⟨.half high :: .half low :: raw, ?_, ?_⟩
      · -- the two escapes are read one after the other
        have hhalves : isHalf high = true ∧ isHalf low = true := by
          rw [isHalf, isHalf, hishigh, hislow, Bool.true_or, Bool.or_true]
          exact ⟨rfl, rfl⟩
        have hread := pieces_unit hhigh ('\\' :: 'u' :: ds' ++ (cs ++ '"' :: rest))
        rw [pieces_unit hlow, hraw, ofUnit_of_half hhalves.1, ofUnit_of_half hhalves.2] at hread
        rw [List.append_assoc, List.append_assoc]
        exact hread
      · -- and become one character
        rw [joinHalves, hishigh, hislow, Bool.true_and, if_pos rfl]
  | @half ds cs unit ps hunit hhalf halone _ ih =>
      obtain ⟨raw, hraw, rfl⟩ := ih
      refine ⟨_, ?_, joinHalves_half_of_alone halone⟩
      rw [List.append_assoc, pieces_unit hunit, hraw, ofUnit_of_half hhalf]
      rfl

/-- The body of a string is read up to the quote behind it, and gives the pieces that it spells. -/
theorem stringBody_of_spelled {cs : List Char} {ps : List Piece} (h : Spelled cs ps)
    (rest : List Char) : stringBody (cs ++ '"' :: rest) = some (ps, rest) := by
  obtain ⟨raw, hraw, rfl⟩ := exists_pieces_of_spelled h rest
  rw [stringBody, hraw]
  rfl

/-! ## Numbers -/

/-- The text does not go on with anything that a number could have next: a digit, `.` or an
exponent. -/
def EndsNumber (rest : List Char) : Prop :=
  ∀ c ∈ rest.head?, c.isDigit = false ∧ c ≠ '.' ∧ c ≠ 'e' ∧ c ≠ 'E'

/-- `EndsNumber` goes by the first character. -/
theorem endsNumber_cons {c : Char} (hdigit : c.isDigit = false) (hpoint : c ≠ '.') (he : c ≠ 'e')
    (he' : c ≠ 'E') (cs : List Char) : EndsNumber (c :: cs) := by
  intro d hd
  obtain rfl : c = d := Option.some.inj hd
  exact ⟨hdigit, hpoint, he, he'⟩

/-- `digits` takes all digits in front and leaves what follows them. -/
theorem digits_append {ds rest : List Char} (hds : ∀ c ∈ ds, c.isDigit = true)
    (hrest : ∀ c ∈ rest.head?, c.isDigit = false) : digits (ds ++ rest) = (ds, rest) := by
  have hstop : rest.takeWhile Char.isDigit = [] ∧ rest.dropWhile Char.isDigit = rest := by
    cases rest with
    | nil => exact ⟨rfl, rfl⟩
    | cons c rest =>
        have hc : ¬c.isDigit = true := Bool.eq_false_iff.mp (hrest c rfl)
        exact ⟨List.takeWhile_cons_of_neg hc, List.dropWhile_cons_of_neg hc⟩
  rw [digits, List.takeWhile_append_of_pos hds, List.dropWhile_append_of_pos hds, hstop.1, hstop.2,
    List.append_nil]

/-- `wholePart` reads the digits of a whole number, either a single zero or none in front. -/
theorem wholePart_append {ds rest : List Char} (hds : WholeDigits ds)
    (hrest : ∀ c ∈ rest.head?, c.isDigit = false) :
    wholePart (ds ++ rest) = some (Nat.ofDigitChars 10 ds 0, rest) := by
  obtain ⟨⟨hne, hdigits⟩, hlead⟩ := hds
  obtain ⟨d, ds, rfl⟩ := List.exists_cons_of_ne_nil hne
  -- a leading zero is the whole number, and only behind another digit do more digits belong to it
  by_cases hzero : d = '0'
  · subst hzero
    rw [hlead rfl]
    rfl
  · rw [wholePart, digits_append hdigits hrest]
    rintro _ h
    exact hzero (List.cons.inj h).1

/-- `fractionPart` takes the point and the digits behind it, if there is a point. -/
theorem fractionPart_append {fraction rest : List Char} (h : Fraction fraction)
    (hrest : ∀ c ∈ rest.head?, c.isDigit = false ∧ c ≠ '.') :
    fractionPart (fraction ++ rest) = (fraction, rest) := by
  cases h with
  | absent =>
      rw [List.nil_append, fractionPart]
      rintro cs rfl
      exact (hrest '.' rfl).2 rfl
  | given hds =>
      obtain ⟨hne, hdigits⟩ := hds
      obtain ⟨d, ds, rfl⟩ := List.exists_cons_of_ne_nil hne
      rw [List.cons_append, fractionPart, digits_append hdigits fun c hc => (hrest c hc).1]

/-- `signPart` takes the sign of an exponent, if it has one. -/
theorem signPart_append {sign ds : List Char} (hsign : sign = [] ∨ sign = ['+'] ∨ sign = ['-'])
    (hds : Digits ds) (rest : List Char) :
    signPart (sign ++ (ds ++ rest)) = (sign, ds ++ rest) := by
  obtain ⟨hne, hdigits⟩ := hds
  obtain ⟨d, ds, rfl⟩ := List.exists_cons_of_ne_nil hne
  have hd : d.isDigit = true := hdigits d List.mem_cons_self
  rcases hsign with rfl | rfl | rfl
  · rw [List.nil_append, List.cons_append, signPart]
    · rintro _ h
      rw [(List.cons.inj h).1] at hd
      exact absurd hd (by decide)
    · rintro _ h
      rw [(List.cons.inj h).1] at hd
      exact absurd hd (by decide)
  · rfl
  · rfl

/-- `exponentPart` takes the letter, the sign and the digits, if there is a letter. -/
theorem exponentPart_append {exponent rest : List Char} (h : Exponent exponent)
    (hrest : EndsNumber rest) : exponentPart (exponent ++ rest) = (exponent, rest) := by
  cases h with
  | absent =>
      cases rest with
      | nil => rfl
      | cons c rest =>
          obtain ⟨-, -, he, he'⟩ := hrest c rfl
          rw [List.nil_append, exponentPart, if_neg (not_or.mpr ⟨he, he'⟩)]
  | @given e sign ds he hsign hds =>
      rw [List.append_assoc, List.cons_append, exponentPart, if_pos he, signPart_append hsign hds,
        digits_append hds.2 fun c hc => (hrest c hc).1]
      obtain ⟨d, ds, rfl⟩ := List.exists_cons_of_ne_nil hds.1
      rfl

/-- What follows the fraction is no digit and no second point. -/
theorem Exponent.head_append {exponent rest : List Char} (h : Exponent exponent)
    (hrest : EndsNumber rest) :
    ∀ c ∈ (exponent ++ rest).head?, c.isDigit = false ∧ c ≠ '.' := by
  intro c hc
  cases h with
  | absent => exact ⟨(hrest c hc).1, (hrest c hc).2.1⟩
  | given he _ _ =>
      obtain rfl := Option.some.inj hc
      rcases he with rfl | rfl <;> decide

/-- What follows the whole part is no digit. -/
theorem Fraction.head_append {fraction rest : List Char} (h : Fraction fraction)
    (hrest : ∀ c ∈ rest.head?, c.isDigit = false ∧ c ≠ '.') :
    ∀ c ∈ (fraction ++ rest).head?, c.isDigit = false := by
  intro c hc
  cases h with
  | absent => exact (hrest c hc).1
  | given _ =>
      obtain rfl := Option.some.inj hc
      decide

/-- `magnitude` is the readers of the three parts of a number, one after the other. -/
theorem magnitude_of_parts {negative : Bool} {cs rest₁ rest₂ rest₃ fraction exponent : List Char}
    {whole : Nat} (hwhole : wholePart cs = some (whole, rest₁))
    (hfraction : fractionPart rest₁ = (fraction, rest₂))
    (hexponent : exponentPart rest₂ = (exponent, rest₃)) :
    magnitude negative cs = some (⟨negative, whole, fraction ++ exponent⟩, rest₃) := by
  rw [magnitude, hwhole]
  simp only [Option.bind_eq_bind, Option.bind_some, hfraction, hexponent, Option.pure_def]

/-- `numeral` reads back every number that is `Written`, with or without a sign. -/
theorem numeral_of_written {n : Numeral} {cs rest : List Char} (h : n.Written cs)
    (hrest : EndsNumber rest) : numeral (cs ++ rest) = some (n, rest) := by
  obtain @⟨negative, ds, fraction, exponent, hds, hfraction, hexponent⟩ := h
  have hexp := hexponent.head_append hrest
  have hmagnitude : magnitude negative (ds ++ (fraction ++ (exponent ++ rest))) =
      some (⟨negative, Nat.ofDigitChars 10 ds 0, fraction ++ exponent⟩, rest) :=
    magnitude_of_parts (wholePart_append hds (hfraction.head_append hexp))
      (fractionPart_append hfraction hexp) (exponentPart_append hexponent hrest)
  rw [List.append_assoc, List.append_assoc, List.append_assoc]
  cases negative with
  | true => exact hmagnitude
  | false =>
      obtain ⟨⟨hne, hdigits⟩, -⟩ := hds
      obtain ⟨d, ds, rfl⟩ := List.exists_cons_of_ne_nil hne
      have hd : d.isDigit = true := hdigits d List.mem_cons_self
      rw [if_neg Bool.false_ne_true, List.nil_append, List.cons_append, numeral]
      · exact hmagnitude
      · -- a digit is not taken for the sign
        intro _ h
        rw [(List.cons.inj h).1] at hd
        exact absurd hd (by decide)

/-! ## Values -/

/-- `value` passes over blanks in front first. -/
theorem value_skipBlanks (fuel : Nat) (cs : List Char) :
    value fuel (skipBlanks cs) = value fuel cs := by
  cases fuel with
  | zero => rfl
  | succ fuel => rw [value, value, skipBlanks_skipBlanks]

/-- `key` passes over blanks in front first. -/
theorem key_skipBlanks (cs : List Char) : key (skipBlanks cs) = key cs := by
  rw [key, key, skipBlanks_skipBlanks]

/-- A blank in front of a value changes nothing. -/
theorem value_cons_of_blank {b : Char} (hb : isBlank b = true) (fuel : Nat) (cs : List Char) :
    value fuel (b :: cs) = value fuel cs := by
  rw [← value_skipBlanks, skipBlanks_cons_of_blank hb, value_skipBlanks]

/-- A blank between the items of an array changes nothing. -/
theorem moreItems_cons_of_blank {b : Char} (hb : isBlank b = true) (fuel : Nat) (cs : List Char) :
    moreItems fuel (b :: cs) = moreItems fuel cs := by
  cases fuel with
  | zero => rfl
  | succ fuel => rw [moreItems, moreItems, skipBlanks_cons_of_blank hb]

/-- A blank between the members of an object changes nothing. -/
theorem moreMembers_cons_of_blank {b : Char} (hb : isBlank b = true) (fuel : Nat)
    (cs : List Char) : moreMembers fuel (b :: cs) = moreMembers fuel cs := by
  cases fuel with
  | zero => rfl
  | succ fuel => rw [moreMembers, moreMembers, skipBlanks_cons_of_blank hb]

/-- `key` reads back a key with the blanks around it and the colon. -/
theorem key_of_written {k : List Piece} {ks : List Char} (h : KeyWritten k ks)
    (rest : List Char) : key (ks ++ rest) = some (k, rest) := by
  obtain @⟨before, cs, after, _, hbefore, hcs, hafter⟩ := h
  have hassoc : before ++ '"' :: cs ++ '"' :: after ++ [':'] ++ rest =
      before ++ '"' :: (cs ++ '"' :: (after ++ ':' :: rest)) := by simp
  rw [hassoc, key, skipBlanks_append hbefore, skipBlanks_cons_of_not_blank (by decide)]
  show (stringBody _ >>= fun x => _) = _
  rw [stringBody_of_spelled hcs]
  have hblank : isBlank ':' = false := rfl
  simp only [Option.bind_eq_bind, Option.bind_some, skipBlanks_append hafter,
    skipBlanks_cons_of_not_blank hblank]

/-- The first character of a number starts nothing else, and it is no blank. -/
theorem Numeral.Written.head {n : Numeral} {cs : List Char} (h : n.Written cs) :
    ∃ c rest, cs = c :: rest ∧ isBlank c = false ∧ c ≠ 'n' ∧ c ≠ 't' ∧ c ≠ 'f' ∧ c ≠ '"' ∧
      c ≠ '[' ∧ c ≠ '\x7b' := by
  obtain @⟨negative, ds, fraction, exponent, ⟨⟨hne, hdigits⟩, -⟩, -, -⟩ := h
  obtain ⟨d, ds, rfl⟩ := List.exists_cons_of_ne_nil hne
  cases negative with
  | true => exact ⟨'-', _, rfl, by decide⟩
  | false =>
      have hd : '0'.toNat ≤ d.toNat ∧ d.toNat ≤ '9'.toNat :=
        Char.isDigit_iff_toNat.mp (hdigits d List.mem_cons_self)
      have hother {c : Char} (hc : ¬('0'.toNat ≤ c.toNat ∧ c.toNat ≤ '9'.toNat)) : d ≠ c := by
        rintro rfl
        exact hc hd
      -- no digit is any of these
      refine ⟨d, _, rfl, ?_, hother (by decide), hother (by decide), hother (by decide),
        hother (by decide), hother (by decide), hother (by decide)⟩
      simp only [isBlank, Bool.or_eq_false_iff, decide_eq_false_iff_not]
      exact ⟨⟨⟨hother (by decide), hother (by decide)⟩, hother (by decide)⟩, hother (by decide)⟩

/-- `value` reads back every number that is `Written`, in front of what ends it. -/
theorem value_number {n : Numeral} {cs rest : List Char} (h : n.Written cs)
    (hrest : EndsNumber rest) (fuel : Nat) :
    value (fuel + 1) (cs ++ rest) = some (.number n, rest) := by
  have hread := numeral_of_written h hrest
  obtain ⟨c, cs, rfl, hblank, hn, ht, hf, hquote, hbracket, hbrace⟩ := h.head
  rw [List.cons_append] at hread ⊢
  rw [value, skipBlanks_cons_of_not_blank hblank]
  -- no other kind of value starts with the first character of a number
  split
  · next heq => exact absurd (List.cons.inj heq).1 hn
  · next heq => exact absurd (List.cons.inj heq).1 ht
  · next heq => exact absurd (List.cons.inj heq).1 hf
  · next heq => exact absurd (List.cons.inj heq).1 hquote
  · next heq => exact absurd (List.cons.inj heq).1 hbracket
  · next heq => exact absurd (List.cons.inj heq).1 hbrace
  · rw [hread]
    rfl

/-- A value does not start with `]`. -/
theorem value_bracket (fuel : Nat) (cs : List Char) : value fuel (']' :: cs) = none := by
  cases fuel <;> rfl

/-- An array with items is read as its first item, and the others by `moreItems`. -/
theorem value_array {fuel : Nat} {cs rest rest' : List Char} {v : Json} {vs : List Json}
    (hv : value fuel cs = some (v, rest)) (hvs : moreItems fuel rest = some (vs, rest')) :
    value (fuel + 1) ('[' :: cs) = some (.array (v :: vs), rest') := by
  have hblank : isBlank '[' = false := rfl
  simp only [value, skipBlanks_cons_of_not_blank hblank]
  split
  · -- a bracket here would close the array before its first item
    next heq =>
      rw [← value_skipBlanks, heq, value_bracket] at hv
      exact absurd hv (Option.some_ne_none _).symm
  · rw [value_skipBlanks, hv]
    simp only [Option.bind_eq_bind, Option.bind_some, hvs, Option.pure_def]

/-- Where `moreItems` finds no item, the bracket is closed at once. -/
theorem value_emptyArray {fuel : Nat} {cs rest : List Char}
    (h : moreItems fuel cs = some ([], rest)) :
    value (fuel + 1) ('[' :: cs) = some (.array [], rest) := by
  have hclose : skipBlanks cs = ']' :: rest := by
    cases fuel with
    | zero => exact absurd h (Option.some_ne_none _).symm
    | succ fuel =>
        rw [moreItems] at h
        split at h
        · next heq =>
            obtain rfl := (Prod.mk.inj (Option.some.inj h)).2
            exact heq
        · obtain ⟨_, -, h⟩ := Option.bind_eq_some_iff.mp h
          obtain ⟨_, -, h⟩ := Option.bind_eq_some_iff.mp h
          exact absurd (Prod.mk.inj (Option.some.inj h)).1 (List.cons_ne_nil _ _)
        · exact absurd h (Option.some_ne_none _).symm
  have hblank : isBlank '[' = false := rfl
  simp only [value, skipBlanks_cons_of_not_blank hblank, hclose]

/-- An object with members is read as a key and a value, and the other members by `moreMembers`. -/
theorem value_object {fuel : Nat} {cs rest rest' rest'' : List Char} {k : List Piece} {v : Json}
    {ms : List (List Piece × Json)} (hk : key cs = some (k, rest))
    (hv : value fuel rest = some (v, rest')) (hms : moreMembers fuel rest' = some (ms, rest'')) :
    value (fuel + 1) ('\x7b' :: cs) = some (.object ((k, v) :: ms), rest'') := by
  have hblank : isBlank '\x7b' = false := rfl
  simp only [value, skipBlanks_cons_of_not_blank hblank]
  split
  · next heq =>
      -- a key starts with a quote
      rw [← key_skipBlanks, heq] at hk
      exact absurd hk (Option.some_ne_none _).symm
  · rw [key_skipBlanks, hk]
    simp only [Option.bind_eq_bind, Option.bind_some, hv, hms, Option.pure_def]

/-- Where `moreMembers` finds no member, the brace is closed at once. -/
theorem value_emptyObject {fuel : Nat} {cs rest : List Char}
    (h : moreMembers fuel cs = some ([], rest)) :
    value (fuel + 1) ('\x7b' :: cs) = some (.object [], rest) := by
  have hclose : skipBlanks cs = '\x7d' :: rest := by
    cases fuel with
    | zero => exact absurd h (Option.some_ne_none _).symm
    | succ fuel =>
        rw [moreMembers] at h
        split at h
        · next heq =>
            obtain rfl := (Prod.mk.inj (Option.some.inj h)).2
            exact heq
        · obtain ⟨_, -, h⟩ := Option.bind_eq_some_iff.mp h
          obtain ⟨_, -, h⟩ := Option.bind_eq_some_iff.mp h
          obtain ⟨_, -, h⟩ := Option.bind_eq_some_iff.mp h
          exact absurd (Prod.mk.inj (Option.some.inj h)).1 (List.cons_ne_nil _ _)
        · exact absurd h (Option.some_ne_none _).symm
  have hblank : isBlank '\x7b' = false := rfl
  simp only [value, skipBlanks_cons_of_not_blank hblank, hclose]

/-! ## Phrases -/

/-- A blank ends a number. -/
theorem endsNumber_cons_of_blank {b : Char} (hb : isBlank b = true) (cs : List Char) :
    EndsNumber (b :: cs) := by
  simp only [isBlank, Bool.or_eq_true, decide_eq_true_eq] at hb
  rcases hb with ((rfl | rfl) | rfl) | rfl <;>
    exact endsNumber_cons (by decide) (by decide) (by decide) (by decide) cs

/-- A `,` or a bracket ends a number, with or without blanks before it. -/
theorem Phrase.Written.endsNumber_items {vs : List Json} {ts : List Char}
    (h : (Phrase.items vs).Written ts) (rest : List Char) : EndsNumber (ts ++ rest) := by
  cases h with
  | blank hb _ => exact endsNumber_cons_of_blank hb _
  | noItem => exact endsNumber_cons (by decide) (by decide) (by decide) (by decide) _
  | item _ _ => exact endsNumber_cons (by decide) (by decide) (by decide) (by decide) _

/-- A `,` or a brace ends a number, with or without blanks before it. -/
theorem Phrase.Written.endsNumber_members {ms : List (List Piece × Json)} {ts : List Char}
    (h : (Phrase.members ms).Written ts) (rest : List Char) : EndsNumber (ts ++ rest) := by
  cases h with
  | blank hb _ => exact endsNumber_cons_of_blank hb _
  | noMember => exact endsNumber_cons (by decide) (by decide) (by decide) (by decide) _
  | member _ _ _ => exact endsNumber_cons (by decide) (by decide) (by decide) (by decide) _

/-- The reader for a phrase (`value`, `moreItems` or `moreMembers`) finds it at the front of some
characters and leaves the rest. A value must not be followed by more of a number. -/
def Phrase.ReadFrom (fuel : Nat) (cs rest : List Char) : Phrase → Prop
  | .value v => EndsNumber rest → Json.value fuel cs = some (v, rest)
  | .items vs => moreItems fuel cs = some (vs, rest)
  | .members ms => moreMembers fuel cs = some (ms, rest)

/-- None of the three readers minds a blank in front. -/
theorem Phrase.readFrom_cons_of_blank {b : Char} (hb : isBlank b = true) (p : Phrase) (fuel : Nat)
    (cs rest : List Char) : p.ReadFrom fuel (b :: cs) rest ↔ p.ReadFrom fuel cs rest := by
  cases p with
  | value v => rw [ReadFrom, ReadFrom, value_cons_of_blank hb]
  | items vs => rw [ReadFrom, ReadFrom, moreItems_cons_of_blank hb]
  | members ms => rw [ReadFrom, ReadFrom, moreMembers_cons_of_blank hb]

private theorem exists_fuel {c : Char} {cs : List Char} {fuel : Nat}
    (h : (c :: cs).length ≤ fuel) : ∃ left, fuel = left + 1 := by
  rw [List.length_cons] at h
  exact ⟨fuel - 1, by omega⟩

/-- Every phrase is read back by its reader, whatever comes behind it, on as much `fuel` as it has
characters. -/
theorem Phrase.Written.readFrom {p : Phrase} {cs : List Char} (h : p.Written cs) {fuel : Nat}
    (hfuel : cs.length ≤ fuel) (rest : List Char) : p.ReadFrom fuel (cs ++ rest) rest := by
  -- each phrase takes one character and one unit of fuel at least before its parts are read
  induction h generalizing fuel rest with
  | blank hb _ ih =>
      rw [List.cons_append, readFrom_cons_of_blank hb]
      exact ih (Nat.le_of_succ_le hfuel) rest
  | null | true | false =>
      obtain ⟨fuel, rfl⟩ := exists_fuel hfuel
      exact fun _ => rfl
  | number hn =>
      obtain ⟨c, cs, rfl, -⟩ := hn.head
      obtain ⟨fuel, rfl⟩ := exists_fuel hfuel
      exact fun hrest => value_number hn hrest fuel
  | @string cs ps hps =>
      obtain ⟨fuel, rfl⟩ := exists_fuel hfuel
      intro _
      have hread := stringBody_of_spelled hps rest
      show (stringBody (cs ++ ['"'] ++ rest) >>= fun x => _) = _
      rw [List.append_assoc, List.singleton_append, hread]
      rfl
  | emptyArray _ ih =>
      obtain ⟨fuel, rfl⟩ := exists_fuel hfuel
      exact fun _ => value_emptyArray (ih (Nat.le_of_succ_le_succ hfuel) rest)
  -- what comes behind the first item are the other items, which end a number
  | @array v vs cs ts _ hvs ihv ihvs =>
      obtain ⟨fuel, rfl⟩ := exists_fuel hfuel
      simp only [List.cons_append, List.length_cons, List.length_append] at hfuel
      intro _
      have hv := @ihv fuel (by omega) (ts ++ rest) (hvs.endsNumber_items rest)
      rw [← List.append_assoc] at hv
      exact value_array hv (ihvs (by omega) rest)
  | emptyObject _ ih =>
      obtain ⟨fuel, rfl⟩ := exists_fuel hfuel
      exact fun _ => value_emptyObject (ih (Nat.le_of_succ_le_succ hfuel) rest)
  | @object k v ms ks cs ts hk _ hms ihv ihms =>
      obtain ⟨fuel, rfl⟩ := exists_fuel hfuel
      simp only [List.cons_append, List.length_cons, List.length_append] at hfuel
      intro _
      have hv := @ihv fuel (by omega) (ts ++ rest) (hms.endsNumber_members rest)
      have hkey := key_of_written hk (cs ++ (ts ++ rest))
      rw [← List.append_assoc, ← List.append_assoc] at hkey
      exact value_object hkey hv (ihms (by omega) rest)
  | noItem | noMember =>
      obtain ⟨fuel, rfl⟩ := exists_fuel hfuel
      rfl
  | @item v vs cs ts _ hvs ihv ihvs =>
      obtain ⟨fuel, rfl⟩ := exists_fuel hfuel
      simp only [List.cons_append, List.length_cons, List.length_append] at hfuel
      have hv := @ihv fuel (by omega) (ts ++ rest) (hvs.endsNumber_items rest)
      have htail : moreItems fuel (ts ++ rest) = some (vs, rest) := ihvs (by omega) rest
      show (Json.value fuel (cs ++ ts ++ rest) >>= fun x => _) = _
      rw [List.append_assoc, hv]
      show (moreItems fuel (ts ++ rest) >>= fun x => _) = _
      rw [htail]
      rfl
  | @member k v ms ks cs ts hk _ hms ihv ihms =>
      obtain ⟨fuel, rfl⟩ := exists_fuel hfuel
      simp only [List.cons_append, List.length_cons, List.length_append] at hfuel
      have hkey := key_of_written hk (cs ++ (ts ++ rest))
      have hv := @ihv fuel (by omega) (ts ++ rest) (hms.endsNumber_members rest)
      have htail : moreMembers fuel (ts ++ rest) = some (ms, rest) := ihms (by omega) rest
      show (key (ks ++ cs ++ ts ++ rest) >>= fun x => _) = _
      rw [List.append_assoc, List.append_assoc, hkey]
      show (Json.value fuel (cs ++ (ts ++ rest)) >>= fun x => _) = _
      rw [hv]
      show (moreMembers fuel (ts ++ rest) >>= fun x => _) = _
      rw [htail]
      rfl

/-- `parse` reads a text that writes a value as that value. -/
theorem parse_of_writtenAs {v : Json} {text : String} (h : v.WrittenAs text) :
    parse text = some v := by
  obtain ⟨cs, blanks, htext, hcs, hblanks⟩ := h
  have hend : EndsNumber blanks := by
    cases blanks with
    | nil => exact fun _ h => absurd h (Option.some_ne_none _).symm
    | cons b blanks => exact endsNumber_cons_of_blank (hblanks b List.mem_cons_self) blanks
  have hlength : cs.length ≤ text.toList.length + 1 := by
    rw [htext, List.length_append]
    omega
  have hread : value (text.toList.length + 1) (cs ++ blanks) = some (v, blanks) :=
    hcs.readFrom hlength blanks hend
  rw [← htext] at hread
  have hskip : (skipBlanks blanks).isEmpty = true := by
    rw [← List.append_nil blanks, skipBlanks_append hblanks]
    rfl
  rw [parse, hread]
  exact if_pos hskip

end ShaderCompat.Json
