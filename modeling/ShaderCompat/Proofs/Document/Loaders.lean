import ShaderCompat.Proofs.Document.KnownFields
import ShaderCompat.Proofs.Yaml.Format

/-!
# The loaders agree on what is written

Options are written as a JSON document, which is a document of YAML as well. Both loaders read the
options back from it (`Options.loaders_agree`).

That the options are read back from the value of the document is said once for both formats:
`Document.Format.Shows` is what a format has to do for it. In YAML every label and every key is a
quoted scalar, and every number and truth value is a plain one.
-/

namespace ShaderCompat

open Document

/-- A format shows what JSON values are made of, when `shown` turns them into values of the
format. -/
structure Document.Format.Shows {ν : Type} (f : Format ν) (shown : Json → ν) : Prop where
  record : ∀ (names : List String) (ms : List (String × Json)), names.Nodup →
    ms.map Prod.fst = names →
    f.record names (shown (.record ms)) = some (ms.map fun m => (m.1, shown m.2))
  signed : ∀ n : Int, f.signed (shown (.ofInt n)) = some n
  unsigned : ∀ n : Nat, f.unsigned (shown (.ofInt n)) = some n
  truth : ∀ b : Bool, f.truth (shown (.bool b)) = some b
  choice : ∀ s : String, f.choice (shown (.ofText s)) = some s

/-! ## Reading options back -/

section Shows

variable {ν : Type} {f : Format ν} {shown : Json → ν} (h : f.Shows shown)
include h

/-- Such a format shows signed words. -/
theorem Document.Format.Shows.int32 (n : Int32) :
    f.int32 (shown (.ofInt n.toInt)) = some n := Format.int32_of_signed (h.signed _)

/-- Such a format shows unsigned words. -/
theorem Document.Format.Shows.uint32 (n : UInt32) :
    f.uint32 (shown (.ofInt n.toNat)) = some n := Format.uint32_of_unsigned (h.unsigned _)

/-- A target is read back in every format that `Shows` JSON values. -/
theorem Target.decode_shown (t : Target) : decode f (shown t.toJson) = some t :=
  decode_eq_some (h.record _ _ (by decide) rfl) (h.uint32 _) (h.int32 _) (h.int32 _) (h.int32 _)

/-- The switches are read back in every such format. -/
theorem Messages.decode_shown (m : Messages) : decode f (shown m.toJson) = some m :=
  decode_eq_some (h.record _ _ (by decide) rfl) (h.truth _) (h.truth _) (h.truth _) (h.truth _)
    (h.truth _) (h.truth _) (h.truth _) (h.truth _)

/-- Options are read back in every such format. -/
theorem Options.decode_shown (o : Options) : decode f (shown o.toJson) = some o := by
  refine decode_eq_some (h.record _ _ (by decide) rfl) (h.int32 _) ?_ ?_
    (Target.decode_shown h o.target) (h.truth _) (Messages.decode_shown h o.messages)
  · change (f.choice (shown (.ofText o.profile.label))).bind Profile.ofLabel? = _
    rw [h.choice]
    exact Profile.ofLabel?_label _
  · change (f.choice (shown (.ofText o.stage.label))).bind Stage.ofLabel? = _
    rw [h.choice]
    exact Stage.ofLabel?_label _

end Shows

/-! ## The two formats -/

/-- JSON shows its own values. -/
theorem Json.format_shows : format.Shows id where
  record _ ms hnodup hnames := by
    change fields? _ (Json.record ms) = some (ms.map id)
    rw [List.map_id]
    exact fields?_record hnodup (hnames ▸ List.Sublist.refl _)
  signed := signed_ofInt
  unsigned := unsigned_ofInt
  truth _ := rfl
  choice := label?_ofText

/-- YAML shows what `Json.toYaml` makes of them. -/
theorem Yaml.format_shows : format.Shows Json.toYaml where
  record _ _ hnodup hnames := fields?_record hnodup hnames
  signed n := by
    change signed? (String.ofList (Json.Numeral.ofInt n).render).toList = some n
    rw [String.toList_ofList]
    exact signed?_render n
  unsigned n := by
    change unsigned? (String.ofList (Json.Numeral.ofInt n).render).toList = some n
    rw [String.toList_ofList]
    exact unsigned?_render n
  truth b := by
    cases b with
    | true => rfl
    | false => rfl
  choice s := by
    rw [Json.toYaml_ofText]
    rfl

/-! ## Texts of options -/

section Words

open Yaml

/-- The labels of profiles are words. -/
theorem Profile.isWord_label (p : Profile) : IsWord p.label := by cases p <;> decide

/-- The labels of stages are words. -/
theorem Stage.isWord_label (s : Stage) : IsWord s.label := by cases s <;> decide

/-- A target is written with words and numbers. -/
theorem Target.composed_toJson (t : Target) : t.toJson.Composed IsWord := by
  have hkeys : ∀ name ∈ fieldNames, IsWord name := by decide
  refine .record (List.forall_mem_map.mp hkeys) ?_
  simp only [List.forall_mem_cons]
  exact ⟨.int _, .int _, .int _, .int _, List.forall_mem_nil _⟩

/-- The switches are written with words and truth values. -/
theorem Messages.composed_toJson (m : Messages) : m.toJson.Composed IsWord := by
  have hkeys : ∀ name ∈ fieldNames, IsWord name := by decide
  refine .record (List.forall_mem_map.mp hkeys) ?_
  simp only [List.forall_mem_cons]
  exact ⟨.bool _, .bool _, .bool _, .bool _, .bool _, .bool _, .bool _, .bool _,
    List.forall_mem_nil _⟩

/-- Options are written as a record that is `Composed` of words. -/
theorem Options.exists_members (o : Options) :
    ∃ ms, o.toJson = .record ms ∧ (∀ m ∈ ms, IsWord m.1) ∧ ∀ m ∈ ms, m.2.Composed IsWord := by
  have hkeys : ∀ name ∈ fieldNames, IsWord name := by decide
  refine ⟨_, rfl, List.forall_mem_map.mp hkeys, ?_⟩
  simp only [List.forall_mem_cons]
  exact ⟨.int _, .text o.profile.isWord_label, .text o.stage.isWord_label,
    o.target.composed_toJson, .bool _, o.messages.composed_toJson, List.forall_mem_nil _⟩

end Words

namespace Options

/-- Options are read back from what they are written as, as a document of JSON and as one of YAML.
So what is set up from either document is the same, or cannot be set up for the same reason. -/
theorem loaders_agree (o : Options) :
    ofJson (Json.render o.toJson) = .ok o ∧ ofYaml (Json.render o.toJson) = .ok o ∧
      (ofJson (Json.render o.toJson)).bind validate = o.validate ∧
      (ofYaml (Json.render o.toJson)).bind validate = o.validate := by
  obtain ⟨ms, hms, hkeys, hvalues⟩ := o.exists_members
  have hjson : ofJson (Json.render o.toJson) = .ok o := by
    have hparse := (Json.Composed.record hkeys hvalues).parse_render
    have hdecode := decode_shown Json.format_shows o
    rw [hms] at hdecode
    rw [hms, ofJson, hparse]
    exact congrArg (orUnreadable · _) hdecode
  have hyaml : ofYaml (Json.render o.toJson) = .ok o := by
    have hparse := Yaml.parse_render hkeys hvalues
    have hdecode := decode_shown Yaml.format_shows o
    rw [hms] at hdecode
    rw [hms, ofYaml, hparse, Option.bind_some, hdecode]
    rfl
  rw [hjson, hyaml]
  exact ⟨rfl, rfl, rfl, rfl⟩

end Options

end ShaderCompat
