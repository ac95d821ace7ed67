import ShaderCompat.Json.Format

/-!
# The fields of a JSON object

What a record takes from an object depends on the members with known keys alone. `Json.under` lists
the values that an object has under a key, wherever they stand and however the key is spelled, so
that a key is known to occur once if there is one such value. If every key is text and no known key
occurs twice, each field is what stands under its key (`exists_fields`); if a known key occurs
twice, there is no record (`fields?_of_repeats`).
-/

namespace ShaderCompat

/-! ## Words -/

namespace Document

/-- A format that reads a signed number reads it as a word if it is one. -/
theorem Format.int32_of_signed {ν : Type} {f : Format ν} {v : ν} {n : Int32}
    (h : f.signed v = some n.toInt) : f.int32 v = some n := by
  rw [Format.int32, h]
  exact int32?_toInt n

/-- A format that reads an unsigned number reads it as a word if it is one. -/
theorem Format.uint32_of_unsigned {ν : Type} {f : Format ν} {v : ν} {n : UInt32}
    (h : f.unsigned v = some n.toNat) : f.uint32 v = some n := by
  rw [Format.uint32, h]
  exact uint32?_toNat n

/-! ## Entries by name -/

namespace Fields

variable {κ ν : Type} {text? : κ → Option String} {names : List String} {fields : Fields ν}

/-- `named?` goes through the entries from the front and stops at a key without a text. -/
theorem named?_cons (k : κ) (v : ν) (entries : List (κ × ν)) :
    named? text? ((k, v) :: entries) =
      (text? k).bind fun key =>
        (named? text? entries).bind fun fields => some ((key, v) :: fields) := by
  rw [named?, List.mapM_cons]
  change ((text? k).map (·, v)).bind _ = _
  rw [Option.bind_map]
  rfl

/-- The entries of a record with one name. -/
def ofName (name : String) (fields : Fields ν) : Fields ν :=
  fields.filter fun entry => entry.1 == name

/-- What `ofEntries?` drops has none of the listed names. -/
theorem ofName_known {name : String} (h : name ∈ names) (fields : Fields ν) :
    ofName name (fields.filter fun entry => names.contains entry.1) = ofName name fields := by
  rw [ofName, ofName, List.filter_filter]
  refine List.filter_congr fun entry _ => ?_
  cases hname : entry.1 == name with
  | false => rfl
  | true =>
      rw [eq_of_beq hname, List.contains_iff_mem.mpr h]
      rfl

/-- A field is looked up as the first of `ofName`. -/
theorem lookup_eq_head?_ofName (name : String) (fields : Fields ν) :
    fields.lookup name = ((ofName name fields).map Prod.snd).head? := by
  induction fields with
  | nil => rfl
  | cons entry fields ih =>
      obtain ⟨key, v⟩ := entry
      rw [List.lookup_cons, ofName, List.filter_cons, ih, ofName]
      by_cases hname : key = name
      · rw [if_pos (beq_iff_eq.mpr hname), beq_iff_eq.mpr hname.symm]
        rfl
      · rw [if_neg fun h => hname (eq_of_beq h), beq_eq_false_iff_ne.mpr fun h => hname h.symm]

/-- `ofName` lists a name as often as it is given. -/
theorem length_ofName (name : String) (fields : Fields ν) :
    (ofName name fields).length = (fields.map Prod.fst).count name := by
  rw [ofName, List.count, List.countP_map, List.countP_eq_length_filter]
  rfl

/-- No name is given twice exactly if `ofName` has one entry at most, whatever the name. -/
theorem nodup_iff_length_ofName :
    (fields.map Prod.fst).Nodup ↔ ∀ name, (ofName name fields).length ≤ 1 := by
  rw [List.nodup_iff_count]
  exact forall_congr' fun name => by rw [length_ofName]

/-- A record that gives listed names only, in their order, is read as it is. -/
theorem ofEntries?_of_named? {entries : List (κ × ν)} (h : named? text? entries = some fields)
    (hnodup : names.Nodup) (hnames : (fields.map Prod.fst).Sublist names) :
    ofEntries? text? names entries = some fields := by
  have hknown : fields.filter (fun entry => names.contains entry.1) = fields :=
    List.filter_eq_self.mpr fun entry hentry =>
      List.contains_iff_mem.mpr (hnames.mem (List.mem_map_of_mem hentry))
  rw [ofEntries?, h, Option.bind_eq_bind, Option.bind_some, hknown]
  exact if_pos (hnodup.sublist hnames)

end Fields

end Document

namespace Json

open Document Fields

/-- The JSON format reads back a signed number. -/
theorem signed_ofInt (n : Int) : format.signed (.ofInt n) = some n := int?_ofInt n

/-- The JSON format reads back an unsigned number. -/
theorem unsigned_ofInt (n : Nat) : format.unsigned (.ofInt n) = some n := by
  change (int? (.ofInt n)).bind Int.toNat? = some n
  rw [int?_ofInt]
  rfl

/-- The JSON format reads back a signed word. -/
theorem int32_ofInt (n : Int32) : format.int32 (.ofInt n.toInt) = some n :=
  Format.int32_of_signed (signed_ofInt _)

/-- The JSON format reads back a text. -/
theorem label?_ofText (s : String) : (ofText s).label? = some s := textOf_piecesOf s

/-! ## Objects -/

/-- The values of the members of an object whose key is the text `key`, in order. -/
def under (key : String) : Json → List Json
  | .object ms => ms.filterMap fun m => if textOf m.1 = some key then some m.2 else none
  | _ => []

/-- The value is an object. -/
def IsObject (v : Json) : Prop := ∃ ms, v = .object ms

/-- Every key of an object is text: none has half of a surrogate pair in it. -/
def TextKeyed : Json → Prop
  | .object ms => ∀ m ∈ ms, (textOf m.1).isSome
  | _ => True

/-- A known key occurs twice in an object, or more often. -/
def Repeats (names : List String) (v : Json) : Prop := ∃ name ∈ names, 2 ≤ (v.under name).length

/-- An object gives a field: once, by a value that `shows` it, or not at all if it may be left out.
-/
def Gives (v : Json) (name : String) (shows : Json → Prop) (omissible : Prop) : Prop :=
  (∃ w, v.under name = [w] ∧ shows w) ∨ (v.under name = [] ∧ omissible)

/-- A field that is given stands under its name once at most. -/
theorem Gives.length_le {v : Json} {name : String} {shows : Json → Prop} {omissible : Prop}
    (h : v.Gives name shows omissible) : (v.under name).length ≤ 1 := by
  rcases h with ⟨w, hw, -⟩ | ⟨hnone, -⟩
  · rw [hw]
    exact Nat.le_refl 1
  · rw [hnone]
    exact Nat.zero_le 1

/-- What stands under a name does not depend on how the names are spelled. -/
theorem under_of_named {ms : List (List Piece × Json)} {fields : Fields Json}
    (h : named? textOf ms = some fields) (name : String) :
    (Json.object ms).under name = (ofName name fields).map Prod.snd := by
  induction ms generalizing fields with
  | nil =>
      obtain rfl := Option.some.inj h
      rfl
  | cons m ms ih =>
      obtain ⟨k, v⟩ := m
      rw [named?_cons] at h
      obtain ⟨key, hkey, h⟩ := Option.bind_eq_some_iff.mp h
      obtain ⟨rest, hrest, h⟩ := Option.bind_eq_some_iff.mp h
      obtain rfl := Option.some.inj h
      have htail := ih hrest
      rw [under] at htail ⊢
      rw [List.filterMap_cons, ofName, List.filter_cons, hkey, htail, ofName]
      -- the first member is kept by both or by neither
      by_cases hname : key = name
      · rw [if_pos (congrArg some hname), if_pos (beq_iff_eq.mpr hname)]
        rfl
      · rw [if_neg fun h => hname (Option.some.inj h), if_neg fun h => hname (eq_of_beq h)]

/-! ## Records -/

/-- `named?` fails only at a key that is no text. -/
theorem exists_named {ms : List (List Piece × Json)} (h : (Json.object ms).TextKeyed) :
    ∃ fields, named? textOf ms = some fields := by
  induction ms with
  | nil => exact ⟨[], rfl⟩
  | cons m ms ih =>
      obtain ⟨k, v⟩ := m
      obtain ⟨hkey, hms⟩ := List.forall_mem_cons.mp h
      obtain ⟨key, hkey⟩ : ∃ key, textOf k = some key := Option.isSome_iff_exists.mp hkey
      obtain ⟨fields, hfields⟩ := ih hms
      refine ⟨(key, v) :: fields, ?_⟩
      rw [named?_cons, hkey, hfields]
      rfl

/-- The record of an object has what stands under each of its names, which is one value at most. -/
theorem under_of_fields? {ms : List (List Piece × Json)} {names : List String}
    {fields : Fields Json} (h : (Json.object ms).fields? names = some fields) {name : String}
    (hname : name ∈ names) :
    ((Json.object ms).under name).length ≤ 1 ∧
      fields.lookup name = ((Json.object ms).under name).head? := by
  rw [fields?, ofEntries?] at h
  obtain ⟨all, hall, h⟩ := Option.bind_eq_some_iff.mp h
  obtain ⟨hnodup, h⟩ := Option.ite_none_right_eq_some.mp h
  obtain rfl := Option.some.inj h
  rw [under_of_named hall, ← ofName_known hname, List.length_map, lookup_eq_head?_ofName]
  exact ⟨nodup_iff_length_ofName.mp hnodup name, rfl⟩

/-- If there is a record, any value under one of its names is the field. -/
theorem lookup_of_mem_under {v w : Json} {names : List String} {fields : Fields Json}
    (h : v.fields? names = some fields) {name : String} (hname : name ∈ names)
    (hw : w ∈ v.under name) : fields.lookup name = some w := by
  cases v with
  | object ms =>
      obtain ⟨hle, hlookup⟩ := under_of_fields? h hname
      rw [hlookup]
      obtain ⟨u, hu⟩ := List.length_eq_one_iff.mp
        (Nat.le_antisymm hle (List.length_pos_of_mem hw))
      rw [hu] at hw ⊢
      rw [List.mem_singleton.mp hw]
      rfl
  | _ => exact absurd hw List.not_mem_nil

/-- An object whose keys are text is a record if no known key repeats, and each field is what stands
`under` its name. -/
theorem exists_fields {v : Json} {names : List String} (hobject : v.IsObject)
    (htext : v.TextKeyed) (honce : ∀ name ∈ names, (v.under name).length ≤ 1) :
    ∃ fields, v.fields? names = some fields ∧
      ∀ name ∈ names, fields.lookup name = (v.under name).head? := by
  obtain ⟨ms, rfl⟩ := hobject
  obtain ⟨all, hall⟩ := exists_named htext
  let known := all.filter fun entry => names.contains entry.1
  have hnodup : (known.map Prod.fst).Nodup := by
    refine nodup_iff_length_ofName.mpr fun name => ?_
    by_cases hname : name ∈ names
    · rw [ofName_known hname, ← List.length_map Prod.snd, ← under_of_named hall]
      exact honce name hname
    · -- a member with another name is not among them
      rw [ofName, List.filter_filter, List.filter_eq_nil_iff.mpr]
      · exact Nat.zero_le 1
      · intro member _ h
        obtain ⟨hmember, hknown⟩ := Bool.and_eq_true_iff.mp h
        rw [eq_of_beq hmember] at hknown
        exact hname (List.contains_iff_mem.mp hknown)
  have hfields : (Json.object ms).fields? names = some known := by
    rw [fields?, ofEntries?, hall]
    exact if_pos hnodup
  exact ⟨known, hfields, fun name hname => (under_of_fields? hfields hname).2⟩

/-- An object in which a known key `Repeats` is no record. -/
theorem fields?_of_repeats {v : Json} {names : List String} (h : v.Repeats names) :
    v.fields? names = none := by
  obtain ⟨name, hname, hlength⟩ := h
  cases v with
  | object ms =>
      rw [Option.eq_none_iff_forall_ne_some]
      intro fields hfields
      have hle := (under_of_fields? hfields hname).1
      omega
  | _ => exact absurd hlength (by simp [under])

/-- The keys of a printed record are text. -/
theorem textKeyed_record (ms : List (String × Json)) : (record ms).TextKeyed := by
  refine List.forall_mem_map.mpr fun m _ => ?_
  exact Option.isSome_iff_exists.mpr ⟨m.1, textOf_piecesOf m.1⟩

/-- The keys of a printed record are read back, whatever they are. -/
theorem named?_record (ms : List (String × Json)) :
    named? textOf (ms.map fun (key, v) => (piecesOf key, v)) = some ms := by
  induction ms with
  | nil => rfl
  | cons m ms ih =>
      obtain ⟨key, v⟩ := m
      rw [List.map_cons, named?_cons, ih, textOf_piecesOf]
      rfl

/-- A record that is written with known names, in their order, is read as it is by `fields?`. -/
theorem fields?_record {ms : List (String × Json)} {names : List String} (hnodup : names.Nodup)
    (hnames : (ms.map Prod.fst).Sublist names) : (record ms).fields? names = some ms :=
  ofEntries?_of_named? (named?_record ms) hnodup hnames

/-- A field that an object gives is read, or has the value it has by default (`absent`). -/
theorem Gives.optional {α : Type} {v : Json} {name : String} {shows : Json → Prop}
    {omissible : Prop} (h : v.Gives name shows omissible) {fields : Fields Json}
    (hlookup : fields.lookup name = (v.under name).head?) {read : Json → Option α} {absent a : α}
    (hread : ∀ w ∈ v.under name, shows w → read w = some a) (habsent : omissible → a = absent) :
    fields.optional name read absent = some a := by
  rw [Fields.optional, hlookup]
  rcases h with ⟨w, hw, hshows⟩ | ⟨hnone, homissible⟩
  · have hread := hread w (hw ▸ List.mem_singleton_self w) hshows
    rw [hw]
    exact hread
  · rw [hnone]
    exact congrArg some (habsent homissible).symm

end Json

end ShaderCompat
