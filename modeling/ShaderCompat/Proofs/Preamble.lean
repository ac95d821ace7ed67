import Mathlib.Data.List.Basic
import ShaderCompat.Preamble
import ShaderCompat.Proofs.Extension.Interning

/-!
# The text of a preamble

A shader reads a preamble line by line and finds macros defined, and `Preamble.read?` reads it that
way. `Preamble.macros` lists what is defined for a profile, a version and the two dialects, and this
is what the text of every configuration reads back as (`Preamble.read?_preamble`). Names are taken
from a fixed vocabulary without repetitions, in its order, so none is defined twice; and all that
decides on a name but the profile are lower bounds, so a later version defines what an earlier one
does (`Preamble.macros_sublist`).
-/

namespace ShaderCompat

/-! ## Cutting texts -/

/-- The pieces of a text between the places where the character `mark` stands. -/
def cutAt (mark : Char) (text : String) : List String :=
  (text.split mark).toList.map String.Slice.copy

section

variable {mark : Char}

/-- `cutAt` leaves a text without the mark in one piece. -/
theorem cutAt_of_notMem {text : String} (h : mark ∉ text.toList) : cutAt mark text = [text] := by
  rw [cutAt, String.toList_split_char, List.splitOn_eq_singleton h, List.map_singleton,
    String.ofList_toList]

/-- The first piece of `cutAt` ends at the first mark. -/
theorem cutAt_append {first : String} (h : mark ∉ first.toList) (rest : String) :
    cutAt mark (first ++ String.singleton mark ++ rest) = first :: cutAt mark rest := by
  have htext : (first ++ String.singleton mark ++ rest).toList =
      first.toList ++ mark :: rest.toList := by
    rw [String.toList_append, String.toList_append, String.toList_singleton, List.append_assoc]
    rfl
  rw [cutAt, cutAt, String.toList_split_char, String.toList_split_char, htext,
    List.splitOn_append_cons_self_of_not_mem h, List.map_cons, String.ofList_toList]

/-- Lines that are each ended are found again by `cutAt`, with nothing behind the last. -/
theorem cutAt_join {lines : List String} (h : ∀ line ∈ lines, mark ∉ line.toList) :
    cutAt mark (String.join (lines.map (· ++ String.singleton mark))) = lines ++ [""] := by
  induction lines with
  | nil => exact cutAt_of_notMem List.not_mem_nil
  | cons line rest ih =>
    obtain ⟨hline, hrest⟩ := List.forall_mem_cons.mp h
    rw [List.map_cons, String.join_cons, cutAt_append hline, ih hrest, List.cons_append]

end

/-- The text has neither a blank nor a line end in it, so that `read?` takes it as one word. -/
def Unbroken (text : String) : Prop := ∀ c ∈ text.toList, c ≠ ' ' ∧ c ≠ '\n'

/-- There is no blank to cut the text at. -/
theorem Unbroken.blank_notMem {text : String} (h : Unbroken text) : ' ' ∉ text.toList :=
  fun hc => (h ' ' hc).1 rfl

/-- There is no line end to cut the text at. -/
theorem Unbroken.newline_notMem {text : String} (h : Unbroken text) : '\n' ∉ text.toList :=
  fun hc => (h '\n' hc).2 rfl

/-- A text that is given by its characters is `Unbroken` if they are all right. -/
theorem unbroken_ofList {cs : List Char} (h : cs.all (fun c => c ≠ ' ' ∧ c ≠ '\n') = true) :
    Unbroken (String.ofList cs) := by
  rw [Unbroken, String.toList_ofList]
  exact fun c hc => of_decide_eq_true (List.all_eq_true.mp h c hc)

/-- The names of extensions are `Unbroken`. -/
theorem Extension.unbroken_name (e : Extension) : Unbroken e.name := by
  cases e <;> exact unbroken_ofList (by decide)

/-- Numbers are `Unbroken`: a minus, maybe, and digits. -/
theorem unbroken_decimal (n : Int32) : Unbroken (decimal n) := by
  have hdigits (m : Nat) : ∀ c ∈ m.repr.toList, c.isDigit = true := fun c hc =>
    Nat.isDigit_of_mem_toDigits (by decide) (by decide) (Nat.toList_repr ▸ hc)
  -- the minus of a negative number is no digit, so it is told apart
  have hchars : ∀ c ∈ (decimal n).toList, c = '-' ∨ c.isDigit = true := by
    intro c hc
    rw [decimal, Int.repr_eq_if] at hc
    split at hc
    · exact Or.inr (hdigits _ c hc)
    · rw [String.toList_append] at hc
      rcases List.mem_append.mp hc with hc | hc
      · exact Or.inl (List.mem_singleton.mp hc)
      · exact Or.inr (hdigits _ c hc)
  intro c hc
  constructor
  · rintro rfl
    exact absurd (hchars ' ' hc) (by decide)
  · rintro rfl
    exact absurd (hchars '\n' hc) (by decide)

namespace Preamble

/-! ## Reading a preamble -/

/-- The macro that a line defines, with its value: a `#define` of two words. -/
def definition? (line : String) : Option (String × String) :=
  match cutAt ' ' line with
  | [directive, name, value] => if directive = "#define" then some (name, value) else none
  | _ => none

/-- The macros that a text defines, with their values, if every line of it is a `definition?`. -/
def read? (text : String) : Option (List (String × String)) :=
  let lines := cutAt '\n' text
  if lines.getLast? = some "" then lines.dropLast.mapM definition? else none

/-- The line that defines a macro, without its end. `definition?` reads it back. -/
def define (name value : String) : String := "#define " ++ name ++ " " ++ value

section

variable {name value : String}

/-- `definition?` reads back the line that `define` writes. -/
theorem definition?_define (hname : Unbroken name) (hvalue : Unbroken value) :
    definition? (define name value) = some (name, value) := by
  have hcut : cutAt ' ' (define name value) = ["#define", name, value] := by
    calc cutAt ' ' (define name value)
        = cutAt ' ' ("#define" ++ String.singleton ' ' ++
            (name ++ String.singleton ' ' ++ value)) := by
          refine congrArg (cutAt ' ') ?_
          show "#define" ++ " " ++ name ++ " " ++ value = "#define" ++ " " ++ (name ++ " " ++ value)
          simp only [String.append_assoc]
      _ = ["#define", name, value] := by
          rw [cutAt_append (by decide), cutAt_append hname.blank_notMem,
            cutAt_of_notMem hvalue.blank_notMem]
  rw [definition?, hcut]
  exact if_pos rfl

/-- A line that `define` makes of unbroken words has no line end within. -/
theorem newline_notMem_define (hname : Unbroken name) (hvalue : Unbroken value) :
    '\n' ∉ (define name value).toList := by
  have hdefine : '\n' ∉ "#define ".toList := by decide
  have hblank : '\n' ∉ " ".toList := by decide
  simp only [define, String.toList_append, List.mem_append, not_or]
  exact ⟨⟨⟨hdefine, hname.newline_notMem⟩, hblank⟩, hvalue.newline_notMem⟩

end

section

variable {ms : List (String × String)}

/-- `definition?` reads lines back one by one. -/
theorem mapM_definition? (h : ∀ m ∈ ms, Unbroken m.1 ∧ Unbroken m.2) :
    (ms.map fun m => define m.1 m.2).mapM definition? = some ms := by
  induction ms with
  | nil => rfl
  | cons m ms ih =>
    obtain ⟨hm, hms⟩ := List.forall_mem_cons.mp h
    rw [List.map_cons, List.mapM_cons, definition?_define hm.1 hm.2, ih hms]
    rfl

/-- `read?` reads back definitions of unbroken names by unbroken values. -/
theorem read?_join (h : ∀ m ∈ ms, Unbroken m.1 ∧ Unbroken m.2) :
    read? (String.join (ms.map fun m => define m.1 m.2 ++ String.singleton '\n')) = some ms := by
  have hends : ∀ line ∈ ms.map fun m => define m.1 m.2, '\n' ∉ line.toList := by
    rintro _ hline
    obtain ⟨m, hm, rfl⟩ := List.mem_map.mp hline
    exact newline_notMem_define (h m hm).1 (h m hm).2
  have hlines := cutAt_join hends
  rw [List.map_map] at hlines
  have hread : cutAt '\n' (String.join (ms.map fun m =>
      define m.1 m.2 ++ String.singleton '\n')) = _ := hlines
  rw [read?, hread, List.getLast?_concat, if_pos rfl, List.dropLast_concat]
  exact mapM_definition? h

end

end Preamble

/-! ## The macros of a configuration -/

/-- A scope applies to a profile and a version, as `Scope.covers` computes it. The bounds are all
lower ones. -/
def Scope.AppliesTo (profile : Profile) (version : Int32) : Scope → Prop
  | .never => False
  | .es => profile = .es
  | .desktop => profile ≠ .es
  | .always => True
  | .deviceGroup => profile ≠ .es ∧ 140 ≤ version ∨ profile = .es ∧ 310 ≤ version
  | .multiview => 300 ≤ version

instance (profile : Profile) (version : Int32) (scope : Scope) :
    Decidable (scope.AppliesTo profile version) :=
  match scope with
  | .never => inferInstanceAs (Decidable False)
  | .es => inferInstanceAs (Decidable (profile = .es))
  | .desktop => inferInstanceAs (Decidable (profile ≠ .es))
  | .always => inferInstanceAs (Decidable True)
  | .deviceGroup =>
    inferInstanceAs (Decidable (profile ≠ .es ∧ 140 ≤ version ∨ profile = .es ∧ 310 ≤ version))
  | .multiview => inferInstanceAs (Decidable ((300 : Int32) ≤ version))

/-- `isEs` is about the one profile. -/
theorem Profile.isEs_iff {p : Profile} : p.isEs = true ↔ p = .es := by
  cases p <;> decide

/-- The desktop profiles are all but `es`. -/
theorem Profile.not_isEs_iff {p : Profile} : (!p.isEs) = true ↔ p ≠ .es := by
  cases p <;> decide

/-- `covers` says of a configuration that the scope applies to its profile and version. -/
theorem Scope.covers_iff (scope : Scope) (o : Options) :
    scope.covers o = true ↔ scope.AppliesTo o.profile o.version := by
  cases scope with
  | never => exact iff_of_false Bool.false_ne_true id
  | es => exact Profile.isEs_iff
  | desktop => exact Profile.not_isEs_iff
  | always => exact iff_of_true rfl trivial
  | deviceGroup =>
    rw [covers, AppliesTo]
    by_cases hes : o.profile = .es
    · simp [Profile.isEs_iff, hes]
    · simp [Profile.isEs_iff, hes]
  | multiview => exact decide_eq_true_iff

/-- What applies to a version `v` applies to a later one. -/
theorem Scope.AppliesTo.mono {scope : Scope} {profile : Profile} {v v' : Int32} (hv : v ≤ v')
    (h : scope.AppliesTo profile v) : scope.AppliesTo profile v' := by
  cases scope with
  | deviceGroup =>
    rcases h with ⟨hprofile, hversion⟩ | ⟨hprofile, hversion⟩
    · exact Or.inl ⟨hprofile, Int32.le_trans hversion hv⟩
    · exact Or.inr ⟨hprofile, Int32.le_trans hversion hv⟩
  | multiview => exact Int32.le_trans h hv
  | _ => exact h

namespace Preamble

/-- The definition of a macro that is made under a `condition`, as a list. -/
def given (condition : Prop) [Decidable condition] (name value : String) :
    List (String × String) :=
  if condition then [(name, value)] else []

/-- The macros defined for a profile, a version, and the versions of the Vulkan dialect and of the
OpenGL semantics, in order. Nothing else of a configuration has a part in it. -/
def macros (profile : Profile) (version vulkanGlsl openGl : Int32) : List (String × String) :=
  given (profile = .es) "GL_ES" "1" ++
    [("GL_FRAGMENT_PRECISION_HIGH", "1")] ++
    (Extension.all.filter fun e => e.entry.scope.AppliesTo profile version).map
      (fun e => (e.name, "1")) ++
    given (profile ≠ .es ∧ 150 ≤ version) "GL_core_profile" "1" ++
    given (profile ≠ .es ∧ 150 ≤ version ∧ profile = .compatibility)
      "GL_compatibility_profile" "1" ++
    given (0 < vulkanGlsl) "VULKAN" (decimal vulkanGlsl) ++
    given (0 < openGl) "GL_SPIRV" (decimal openGl)

/-- The macros that a configuration defines: `macros` of four of its fields. -/
def macrosOf (o : Options) : List (String × String) :=
  macros o.profile o.version o.target.vulkanGlsl o.target.openGl

/-- `onlyIf` and `given` are the same for conditions that are. -/
theorem map_onlyIf {condition : Bool} {p : Prop} [Decidable p] (h : condition = true ↔ p)
    (name : String) (value : Int32) :
    (onlyIf condition name value).map (fun m => (m.1, decimal m.2)) =
      given p name (decimal value) := by
  by_cases hp : p
  · rw [onlyIf, given, if_pos (h.mpr hp), if_pos hp]
    rfl
  · rw [onlyIf, given, if_neg (mt h.mp hp), if_neg hp]
    rfl

/-- The preamble's own `definitions` are the macros of the configuration. -/
theorem map_definitions (o : Options) :
    (definitions o).map (fun m => (m.1, decimal m.2)) = macrosOf o := by
  -- the conditions as the preamble has them, in Boolean form, and as `macros` has them
  have hnamed : (!o.profile.isEs && decide (150 ≤ o.version)) = true ↔
      o.profile ≠ .es ∧ 150 ≤ o.version := by
    rw [Bool.and_eq_true, decide_eq_true_eq, Profile.not_isEs_iff]
  have hcompatibility : (!o.profile.isEs && decide (150 ≤ o.version) &&
      decide (o.profile = .compatibility)) = true ↔
        o.profile ≠ .es ∧ 150 ≤ o.version ∧ o.profile = .compatibility := by
    rw [Bool.and_eq_true, hnamed, decide_eq_true_eq, and_assoc]
  have hannounced : announced o =
      Extension.all.filter fun e => e.entry.scope.AppliesTo o.profile o.version :=
    List.filter_congr fun e _ => Bool.eq_iff_iff.mpr
      ((Scope.covers_iff _ o).trans decide_eq_true_iff.symm)
  have hone : decimal 1 = "1" := by decide +kernel
  rw [definitions, macrosOf, macros]
  simp only [List.map_append, map_onlyIf Profile.isEs_iff, map_onlyIf hnamed,
    map_onlyIf hcompatibility, map_onlyIf decide_eq_true_iff, hannounced, List.map_map,
    Function.comp_def, hone, List.map_cons, List.map_nil]

/-- The text defines each macro of `macrosOf` on a line of its own. -/
theorem preamble_eq_join (o : Options) :
    preamble o =
      String.join ((macrosOf o).map fun m => define m.1 m.2 ++ String.singleton '\n') := by
  rw [preamble, ← map_definitions, List.map_map]
  rfl

/-! ## The names -/

/-- The macros that are defined before the extensions. -/
def leading : List String := ["GL_ES", "GL_FRAGMENT_PRECISION_HIGH"]

/-- The macros that are defined after the extensions. -/
def trailing : List String := ["GL_core_profile", "GL_compatibility_profile", "VULKAN", "GL_SPIRV"]

/-- The macros of a preamble that are not names of extensions: `leading` and `trailing`. -/
def fixed : List String := leading ++ trailing

/-- Every name that a preamble can define, in order; those of extensions stand between `leading` and
`trailing`. -/
def vocabulary : List String := leading ++ (Extension.all.map Extension.name ++ trailing)

/-- No extension has the name of a macro in `fixed`. -/
theorem notMem_names : ∀ name ∈ fixed, name ∉ Extension.all.map Extension.name := by
  decide +kernel

/-- The `vocabulary` has no name twice. -/
theorem vocabulary_nodup : vocabulary.Nodup := by
  have hperm : vocabulary.Perm (fixed ++ Extension.all.map Extension.name) := by
    rw [fixed, List.append_assoc]
    exact List.perm_append_comm.append_left leading
  refine hperm.nodup_iff.mpr (List.Nodup.append (by decide) Extension.names_nodup ?_)
  exact fun name hother hname => notMem_names name hother hname

section

variable {p q : Prop} [Decidable p] [Decidable q] {name value : String}

/-- A weaker condition gives the definition more often: `given` is monotone. -/
theorem given_sublist (h : p → q) : (given p name value).Sublist (given q name value) := by
  by_cases hp : p
  · rw [given, given, if_pos hp, if_pos (h hp)]
  · rw [given, if_neg hp]
    exact List.nil_sublist _

/-- Under any condition `given` has no other name. -/
theorem names_given_sublist : ((given p name value).map Prod.fst).Sublist [name] := by
  by_cases hp : p
  · rw [given, if_pos hp]
    exact List.Sublist.refl _
  · rw [given, if_neg hp]
    exact List.nil_sublist _

/-- The texts of a `given` definition do not depend on its condition. -/
theorem unbroken_of_mem_given (hname : Unbroken name) (hvalue : Unbroken value) :
    ∀ m ∈ given p name value, Unbroken m.1 ∧ Unbroken m.2 := by
  intro m hm
  by_cases hp : p
  · rw [given, if_pos hp] at hm
    exact List.mem_singleton.mp hm ▸ ⟨hname, hvalue⟩
  · rw [given, if_neg hp] at hm
    exact absurd hm List.not_mem_nil

end

section

variable (profile : Profile) (version vulkanGlsl openGl : Int32)

/-- Names are taken from the `vocabulary`, in its order. -/
theorem names_sublist :
    ((macros profile version vulkanGlsl openGl).map Prod.fst).Sublist vocabulary := by
  have hannounced : (((Extension.all.filter fun e => e.entry.scope.AppliesTo profile version).map
      fun e => (e.name, "1")).map Prod.fst).Sublist (Extension.all.map Extension.name) := by
    rw [List.map_map]
    exact List.filter_sublist.map Extension.name
  simp only [macros, List.map_append, List.append_assoc]
  exact names_given_sublist.append ((List.Sublist.refl _).append (hannounced.append
    (names_given_sublist.append (names_given_sublist.append (names_given_sublist.append
      names_given_sublist)))))

/-- No macro is defined twice, since `vocabulary` has no name twice. -/
theorem names_nodup : ((macros profile version vulkanGlsl openGl).map Prod.fst).Nodup :=
  vocabulary_nodup.sublist (names_sublist profile version vulkanGlsl openGl)

/-- All names and values of macros are `Unbroken`. -/
theorem unbroken_of_mem_macros :
    ∀ m ∈ macros profile version vulkanGlsl openGl, Unbroken m.1 ∧ Unbroken m.2 := by
  intro m hm
  have hone : Unbroken "1" := unbroken_ofList (by decide)
  simp only [macros, List.mem_append] at hm
  -- the seven parts of `macros`, of which the third are the extensions
  rcases hm with (((((hm | hm) | hm) | hm) | hm) | hm) | hm
  · exact unbroken_of_mem_given (unbroken_ofList (by decide)) hone m hm
  · exact List.mem_singleton.mp hm ▸ ⟨unbroken_ofList (by decide), hone⟩
  · obtain ⟨e, -, rfl⟩ := List.mem_map.mp hm
    exact ⟨e.unbroken_name, hone⟩
  · exact unbroken_of_mem_given (unbroken_ofList (by decide)) hone m hm
  · exact unbroken_of_mem_given (unbroken_ofList (by decide)) hone m hm
  · exact unbroken_of_mem_given (unbroken_ofList (by decide)) (unbroken_decimal _) m hm
  · exact unbroken_of_mem_given (unbroken_ofList (by decide)) (unbroken_decimal _) m hm

/-- What is defined for the version `v` is defined for a later one, in the same order. -/
theorem macros_sublist {v v' : Int32} (hv : v ≤ v') :
    (macros profile v vulkanGlsl openGl).Sublist (macros profile v' vulkanGlsl openGl) := by
  -- three of the seven parts depend on the version
  have hannounced := List.monotone_filter_right Extension.all
    (p := fun e => decide (e.entry.scope.AppliesTo profile v))
    (q := fun e => decide (e.entry.scope.AppliesTo profile v'))
    fun e he => decide_eq_true ((of_decide_eq_true he).mono hv)
  have hcore : (given (profile ≠ .es ∧ 150 ≤ v) "GL_core_profile" "1").Sublist
      (given (profile ≠ .es ∧ 150 ≤ v') "GL_core_profile" "1") :=
    given_sublist fun h => ⟨h.1, Int32.le_trans h.2 hv⟩
  have hcompatibility : (given (profile ≠ .es ∧ 150 ≤ v ∧ profile = .compatibility)
      "GL_compatibility_profile" "1").Sublist
        (given (profile ≠ .es ∧ 150 ≤ v' ∧ profile = .compatibility)
          "GL_compatibility_profile" "1") :=
    given_sublist fun h => ⟨h.1, Int32.le_trans h.2.1 hv, h.2.2⟩
  exact (((((List.Sublist.refl _).append (hannounced.map _)).append hcore).append
    hcompatibility).append (List.Sublist.refl _)).append (List.Sublist.refl _)

end

/-- The text of every configuration reads back as its macros (`macrosOf`). -/
theorem read?_preamble (o : Options) : read? (preamble o) = some (macrosOf o) := by
  rw [preamble_eq_join]
  exact read?_join (unbroken_of_mem_macros _ _ _ _)

/-! ## Which client a shader sees -/

/-- The text consists of definitions, and one of them is of the macro `name`. -/
def Defines (text name : String) : Prop := ∃ ms, read? text = some ms ∧ name ∈ ms.map Prod.fst

/-- A preamble defines the names of its `macrosOf`. -/
theorem defines_preamble_iff {o : Options} {name : String} :
    Defines (preamble o) name ↔ name ∈ (macrosOf o).map Prod.fst := by
  constructor
  · rintro ⟨ms, hms, hname⟩
    rw [read?_preamble] at hms
    exact Option.some.inj hms ▸ hname
  · exact fun hname => ⟨macrosOf o, read?_preamble o, hname⟩

/-- A name is defined by `given` under its condition. -/
theorem mem_names_given {p : Prop} [Decidable p] {name other value : String} :
    name ∈ (given p other value).map Prod.fst ↔ p ∧ name = other := by
  by_cases hp : p
  · rw [given, if_pos hp, List.map_singleton, List.mem_singleton, and_iff_right hp]
  · rw [given, if_neg hp]
    exact iff_of_false List.not_mem_nil fun h => hp h.1

/-- A name that no extension has is defined as one of the `fixed` macros, under the condition of
that macro. -/
theorem mem_names_macros {profile : Profile} {version vulkanGlsl openGl : Int32} {name : String}
    (hname : name ∉ Extension.all.map Extension.name) :
    name ∈ (macros profile version vulkanGlsl openGl).map Prod.fst ↔
      profile = .es ∧ name = "GL_ES" ∨ name = "GL_FRAGMENT_PRECISION_HIGH" ∨
      (profile ≠ .es ∧ 150 ≤ version) ∧ name = "GL_core_profile" ∨
      (profile ≠ .es ∧ 150 ≤ version ∧ profile = .compatibility) ∧
        name = "GL_compatibility_profile" ∨
      0 < vulkanGlsl ∧ name = "VULKAN" ∨ 0 < openGl ∧ name = "GL_SPIRV" := by
  have hannounced : name ∉ ((Extension.all.filter fun e =>
      e.entry.scope.AppliesTo profile version).map fun e => (e.name, "1")).map Prod.fst := by
    rw [List.map_map]
    exact fun h => hname ((List.filter_sublist.map Extension.name).subset h)
  simp only [macros, List.map_append, List.mem_append, mem_names_given, hannounced, or_false,
    List.map_singleton, List.mem_singleton, or_assoc]

/-- Whatever a preamble defines beside the `fixed` macros has the name of an extension. -/
theorem exists_extension {o : Options} {name : String} {value : Int32}
    (h : (name, value) ∈ definitions o) (hname : name ∉ fixed) :
    ∃ e : Extension, e.name = name := by
  by_contra hnone
  have hother : name ∉ Extension.all.map Extension.name := by
    intro hmem
    obtain ⟨e, -, he⟩ := List.mem_map.mp hmem
    exact hnone ⟨e, he⟩
  have hmacro : name ∈ (macrosOf o).map Prod.fst := by
    rw [← map_definitions, List.map_map]
    exact List.mem_map_of_mem h
  -- only the fixed macros have names that no extension has
  refine hname ?_
  rcases (mem_names_macros hother).mp hmacro with ⟨-, rfl⟩ | rfl | ⟨-, rfl⟩ | ⟨-, rfl⟩ | ⟨-, rfl⟩ |
    ⟨-, rfl⟩ <;> decide

/-- `VULKAN` is defined by the version of the dialect. -/
theorem defines_vulkan_iff (o : Options) :
    Defines (preamble o) "VULKAN" ↔ 0 < o.target.vulkanGlsl := by
  rw [defines_preamble_iff, macrosOf, mem_names_macros (notMem_names _ (by decide))]
  simp

/-- `GL_SPIRV` is defined by the version of the OpenGL semantics. -/
theorem defines_spirv_iff (o : Options) :
    Defines (preamble o) "GL_SPIRV" ↔ 0 < o.target.openGl := by
  rw [defines_preamble_iff, macrosOf, mem_names_macros (notMem_names _ (by decide))]
  simp

end Preamble

namespace Options

variable {o o' : Options}

/-- Options that `validate` accepts are taken as they are; with Vulkan goes SPIR-V, and no OpenGL.
-/
theorem validate_eq_ok_iff :
    o.validate = .ok o' ↔
      o' = o ∧ (0 < o.target.vulkan → o.target.spirv ≠ 0 ∧ ¬0 < o.target.openGl) := by
  have hself : (Except.ok o : Except SetupError Options) = .ok o' ↔ o' = o := by
    rw [Except.ok.injEq, eq_comm]
  by_cases hvulkan : 0 < o.target.vulkan
  · by_cases hspirv : o.target.spirv = 0
    · simp [validate, Target.targetsVulkan, Target.generatesSpirv, hvulkan, hspirv]
    · by_cases hopenGl : 0 < o.target.openGl
      · simp [validate, Target.targetsVulkan, Target.generatesSpirv, hvulkan, hspirv, hopenGl]
      · simp [validate, Target.targetsVulkan, Target.generatesSpirv, hvulkan, hspirv, hopenGl,
          hself]
  · simp [validate, Target.targetsVulkan, hvulkan, hself]

/-- The preamble of accepted options defines the macros of one client at most, exactly if the
options do not name a Vulkan dialect together with OpenGL semantics while they leave the Vulkan
interface untargeted. -/
theorem clients_apart_iff (h : o.validate = .ok o') :
    ¬(Preamble.Defines (preamble o') "VULKAN" ∧ Preamble.Defines (preamble o') "GL_SPIRV") ↔
      (0 < o.target.vulkanGlsl → 0 < o.target.openGl → 0 < o.target.vulkan) := by
  obtain ⟨rfl, hvalid⟩ := validate_eq_ok_iff.mp h
  rw [Preamble.defines_vulkan_iff, Preamble.defines_spirv_iff]
  constructor
  · exact fun hapart hdialect hopenGl => absurd ⟨hdialect, hopenGl⟩ hapart
  · rintro hvulkan ⟨hdialect, hopenGl⟩
    exact (hvalid (hvulkan hdialect hopenGl)).2 hopenGl

/-- Options for Vulkan through SPIR-V define the one macro. -/
theorem clients_apart_vulkan :
    let o : Options := { target := .forVulkan 65536 100 }
    o.validate = .ok o ∧
      ¬(Preamble.Defines (preamble o) "VULKAN" ∧ Preamble.Defines (preamble o) "GL_SPIRV") :=
  ⟨by decide, (clients_apart_iff (o := { target := .forVulkan 65536 100 }) (by decide)).mpr
    (by decide)⟩

/-- The dialect of Vulkan is accepted beside OpenGL semantics when the Vulkan interface is not
targeted, and the shader finds both macros, `VULKAN` and `GL_SPIRV`. -/
theorem accepts_both_clients :
    let o : Options :=
      { version := 450
        profile := .core
        stage := .fragment
        target := { spirv := 65536, vulkanGlsl := 100, openGl := 100 } }
    o.validate = .ok o ∧
      Preamble.Defines (preamble o) "VULKAN" ∧ Preamble.Defines (preamble o) "GL_SPIRV" :=
  ⟨by decide, (Preamble.defines_vulkan_iff _).mpr (by decide),
    (Preamble.defines_spirv_iff _).mpr (by decide)⟩

end Options

end ShaderCompat
