import ShaderCompat.Proofs.Document.Fields
import ShaderCompat.Proofs.Yaml.Scanning
import ShaderCompat.Yaml.Format

/-!
# What printed values show in YAML

What YAML takes from the value that a printed JSON value is to it: records have the same fields,
numbers are decimal, truth values are plain and texts are not.
-/

namespace ShaderCompat.Yaml

open Document

/-! ## Numbers -/

/-- `Radix.digit?` reads the decimal digits. -/
theorem digit?_of_isDigit {c : Char} (h : c.isDigit = true) :
    Radix.digit? 10 c = some (c.toNat - '0'.toNat) := by
  have hrange := Char.isDigit_iff_toNat.mp h
  have hdigit : '0' ≤ c ∧ c ≤ '9' := hrange
  have hlt : c.toNat - '0'.toNat < 10 :=
    Nat.sub_lt_left_of_lt_add hrange.1 (Nat.lt_succ_of_le hrange.2)
  rw [Radix.digit?, if_pos hdigit]
  exact if_pos hlt

/-- `Radix.number?` reads any digits as a number in base ten. -/
theorem number?_of_isDigit {ds : List Char} (hne : ds ≠ []) (h : ∀ c ∈ ds, c.isDigit = true) :
    Radix.number? 10 ds = some (Nat.ofDigitChars 10 ds 0) := by
  -- for the induction the number that was read so far has to be anything
  have hfold : ∀ n, ds.foldlM (fun n c => (Radix.digit? 10 c).map (10 * n + ·)) n =
      some (Nat.ofDigitChars 10 ds n) := by
    clear hne
    induction ds with
    | nil => exact fun _ => rfl
    | cons c ds ih =>
        obtain ⟨hc, hds⟩ := List.forall_mem_cons.mp h
        intro n
        rw [List.foldlM_cons, digit?_of_isDigit hc, Nat.ofDigitChars_cons]
        exact ih hds _
  obtain ⟨c, cs, rfl⟩ := List.exists_cons_of_ne_nil hne
  exact hfold 0

/-- Numbers are printed with digits. -/
theorem isDigit_of_mem_toDigits {n : Nat} : ∀ c ∈ Nat.toDigits 10 n, c.isDigit = true :=
  fun _ hc => Nat.isDigit_of_mem_toDigits (by decide) (by decide) hc

/-- `magnitude?` reads a number back from its digits, which have no needless zero in front. -/
theorem magnitude?_toDigits (n : Nat) : magnitude? (Nat.toDigits 10 n) = some n := by
  have hnumber := number?_of_isDigit Nat.toDigits_ne_nil (isDigit_of_mem_toDigits (n := n))
  rw [Nat.ofDigitChars_ten_toDigits] at hnumber
  have hzero := Json.toDigits_head (n := n)
  obtain ⟨d, ds, hds⟩ := List.exists_cons_of_ne_nil (Nat.toDigits_ne_nil (b := 10) (n := n))
  rw [hds] at hnumber hzero ⊢
  -- a zero could start a number in another base, if more came behind it
  by_cases hd : d = '0'
  · subst hd
    obtain rfl : ds = [] := (List.cons.inj (hzero rfl)).2
    exact hnumber
  · unfold magnitude?
    split
    case h_4 =>
      unfold decimal?
      split
      · rename_i heq
        exact absurd (List.cons.inj heq).1 hd
      · exact hnumber
    all_goals
      rename_i heq
      exact absurd (List.cons.inj heq).1 hd

/-- `unsigned?` reads a number back from its digits; there is no sign to strip. -/
theorem unsigned?_toDigits (n : Nat) : unsigned? (Nat.toDigits 10 n) = some n := by
  unfold unsigned?
  split
  · rename_i heq
    have hplus := isDigit_of_mem_toDigits (n := n) '+' (heq ▸ List.mem_cons_self)
    contradiction
  · exact magnitude?_toDigits n

/-- `signed?` reads back every whole number that JSON prints. -/
theorem signed?_render (n : Int) : signed? (Json.Numeral.ofInt n).render = some n := by
  rw [Json.render_ofInt]
  by_cases hn : n < 0
  · rw [if_pos hn]
    change ((magnitude? (Nat.toDigits 10 n.natAbs)).bind fun m => some (m : Int)).map (- ·) = some n
    rw [magnitude?_toDigits, Option.bind_some, Option.map_some,
      Int.ofNat_natAbs_of_nonpos (Int.le_of_lt hn), Int.neg_neg]
  · rw [if_neg hn, List.nil_append]
    unfold signed?
    split
    · rename_i heq
      have hminus := isDigit_of_mem_toDigits (n := n.natAbs) '-' (heq ▸ List.mem_cons_self)
      contradiction
    · rw [unsigned?_toDigits, Option.map_some]
      exact congrArg some (Int.natAbs_of_nonneg (Int.not_lt.mp hn))

/-- `unsigned?` reads back every natural number that JSON prints. -/
theorem unsigned?_render (n : Nat) : unsigned? (Json.Numeral.ofInt n).render = some n := by
  rw [Json.render_ofInt, if_neg (by omega), List.nil_append]
  exact unsigned?_toDigits n

/-! ## Records -/

/-- The keys of a record are scalars, so `Fields.named?` finds all of them. -/
theorem named?_record (ms : List (String × Json)) :
    Fields.named? text? (ms.map fun (key, v) => (.scalar false key, v.toYaml)) =
      some (ms.map fun m => (m.1, m.2.toYaml)) := by
  rw [Fields.named?, List.mapM_map]
  exact List.mapM_pure

/-- A record that is written with the listed names, in their order, is read as it is by `fields?`.
-/
theorem fields?_record {names : List String} {ms : List (String × Json)} (hnodup : names.Nodup)
    (hnames : ms.map Prod.fst = names) :
    (Json.record ms).toYaml.fields? names = some (ms.map fun m => (m.1, m.2.toYaml)) := by
  have hfst : (ms.map fun m => (m.1, m.2.toYaml)).map Prod.fst = names := by
    rw [List.map_map]
    exact hnames
  rw [Json.toYaml_record]
  exact Fields.ofEntries?_of_named? (named?_record ms) hnodup (hfst ▸ List.Sublist.refl _)

end ShaderCompat.Yaml
