import ShaderCompat.Proofs.Session.Refusal

/-!
# Who moved a cursor last

Checkers of a session share cursors, attach them in any order, and move whichever they read from at
the moment. `Session.writes` lists the movements of a cursor in a run. Where a cursor stands at the
end is told by that list and the place it was created at: each field is as the last movement of it
says (`Session.getElem?_cursors_run`). A checker reads from a cursor that exists, whatever was done
before (`Session.wellAttached_of_start`).
-/

namespace ShaderCompat

/-! ## Movements -/

namespace Motion

/-- The file name that a movement sets, if it is a `name`. -/
def name? : Motion → Option String
  | .name text => some text
  | _ => none

/-- The index of the string that a movement sets, if it is a `string`. -/
def string? : Motion → Option Int32
  | .string n => some n
  | _ => none

/-- The line that a movement sets, if it is a `line`. -/
def line? : Motion → Option Int32
  | .line n => some n
  | _ => none

/-- The column that a movement sets, if it is a `column`. -/
def column? : Motion → Option Int32
  | .column n => some n
  | _ => none

end Motion

namespace Location

/-- The location after some movements: each field as the last movement of it says, and as it was if
there is none. -/
def lastWritten (loc : Location) (ms : List Motion) : Location where
  name := (ms.filterMap Motion.name?).getLast?.or loc.name
  string := (ms.filterMap Motion.string?).getLast?.getD loc.string
  line := (ms.filterMap Motion.line?).getLast?.getD loc.line
  column := (ms.filterMap Motion.column?).getLast?.getD loc.column

/-- Without movements a location stays what it was. -/
@[simp] theorem lastWritten_nil (loc : Location) : loc.lastWritten [] = loc := rfl

/-- Movements may be carried out in two parts, one after the other. -/
theorem lastWritten_append (loc : Location) (ms ms' : List Motion) :
    loc.lastWritten (ms ++ ms') = (loc.lastWritten ms).lastWritten ms' := by
  simp only [lastWritten, List.filterMap_append, List.getLast?_append, Option.or_assoc,
    Option.getD_or]

/-- A single movement is `lastWritten` of itself alone: it sets its field. -/
theorem apply_eq_lastWritten (m : Motion) (loc : Location) : m.apply loc = loc.lastWritten [m] := by
  cases m <;> rfl

end Location

/-- The cursor after some movements: its location is `lastWritten`. -/
def Cursor.moved (cursor : Cursor) (ms : List Motion) : Cursor :=
  { cursor with loc := cursor.loc.lastWritten ms }

namespace Session

/-! ## Labels -/

/-- The label of a cursor that `cursor?` finds is the one it was asked for. -/
theorem exists_of_cursor? {s : Session} {label : String} {n : Nat} (h : s.cursor? label = some n) :
    ∃ cursor, s.cursors[n]? = some cursor ∧ cursor.label = label := by
  obtain ⟨⟨cursor, k⟩, hfind, rfl⟩ := Option.map_eq_some_iff.mp h
  refine ⟨cursor, ?_, ?_⟩
  · have hmem := List.mem_reverse.mp (List.mem_of_find?_eq_some hfind)
    exact List.mem_zipIdx_iff_getElem?.mp hmem
  · have hlabel := List.find?_some hfind
    exact eq_of_beq hlabel

/-- Where labels are given once, the label of a cursor stands for that cursor. -/
theorem cursor?_of_nodup {s : Session} (hlabels : (s.cursors.map Cursor.label).Nodup) {n : Nat}
    {cursor : Cursor} (h : s.cursors[n]? = some cursor) : s.cursor? cursor.label = some n := by
  cases hfound : s.cursor? cursor.label with
  | none =>
    have hnone := Option.map_eq_none_iff.mp hfound
    have hmem : (cursor, n) ∈ s.cursors.zipIdx.reverse :=
      List.mem_reverse.mpr (List.mem_zipIdx_iff_getElem?.mpr h)
    exact absurd (beq_self_eq_true cursor.label) (List.find?_eq_none.mp hnone _ hmem)
  | some k =>
    obtain ⟨cursor', hk, hlabel⟩ := exists_of_cursor? hfound
    have hn' : (s.cursors.map Cursor.label)[n]? = some cursor.label := by
      rw [List.getElem?_map, h]
      rfl
    have hk' : (s.cursors.map Cursor.label)[k]? = some cursor.label := by
      rw [List.getElem?_map, hk, ← hlabel]
      rfl
    obtain ⟨hn, -⟩ := List.getElem?_eq_some_iff.mp hn'
    exact congrArg some ((List.getElem?_inj hn hlabels).mp (hn'.trans hk'.symm)).symm

/-! ## One step -/

/-- Of all steps only an `attach` changes what cursor a checker reads from. -/
theorem next_cursor (s : Session) (c : Checker) (st : Step) :
    (s.next c st).cursor =
      match st with
      | .attach label => s.cursorAfter c label
      | _ => c.cursor := by
  have habsorb : (c.absorb (s.effect c st)).1.cursor = c.cursor := by
    rw [Checker.absorb, Checker.receiveAll_checker]
  cases st with
  | attach label =>
    rw [next, adjust_attach]
    rfl
  | _ => exact habsorb

/-- The cursors that a step creates: one if it is a `newCursor` with a checker that is there. -/
def made (s : Session) (i : Nat) : Step → List Cursor
  | .newCursor label loc => if i < s.checkers.length then [⟨label, loc⟩] else []
  | _ => []

/-- The movements that a step makes of the cursor at `n`: those of a checker that reads from it. -/
def written (s : Session) (n i : Nat) : Step → List Motion
  | .move m => if s.checkers[i]?.bind Checker.cursor = some n then [m] else []
  | _ => []

/-- The cursors that a run creates, in order: those `made` by its steps. -/
def created (s : Session) : List (Nat × Step) → List Cursor
  | [] => []
  | (i, st) :: rest => s.made i st ++ (s.step i st).1.created rest

/-- The movements that a run makes of the cursor at `n`, in order: those `written` by its steps. -/
def writes (n : Nat) (s : Session) : List (Nat × Step) → List Motion
  | [] => []
  | (i, st) :: rest => s.written n i st ++ (s.step i st).1.writes n rest

/-- The cursors after a step are those that `share` gives. -/
theorem step_cursors {s : Session} {i : Nat} {c : Checker} (hc : s.checkers[i]? = some c)
    (st : Step) : (s.step i st).1.cursors = (s.share c st).cursors := by
  rw [step_eq_stepWith hc, (stepWith_eq hc st).1]
  rfl

/-- Steps other than `move` and `newCursor` alter no cursor. -/
theorem share_cursors (s : Session) (c : Checker) {st : Step} (hmove : ∀ m, st ≠ .move m)
    (hnew : ∀ label loc, st ≠ .newCursor label loc) : (s.share c st).cursors = s.cursors := by
  cases st with
  | move m => exact absurd rfl (hmove m)
  | newCursor label loc => exact absurd rfl (hnew label loc)
  | intern name label => cases label <;> rfl
  | _ => rfl

/-- `moveCursor` sets a field of the cursor at `k`, and leaves the others. -/
theorem getElem?_cursors_moveCursor (s : Session) (k : Nat) (m : Motion) (n : Nat) :
    (s.moveCursor k m).cursors[n]? =
      (s.cursors[n]?).map fun cursor => cursor.moved (if some k = some n then [m] else []) := by
  show (s.cursors.modify k fun cursor => { cursor with loc := m.apply cursor.loc })[n]? = _
  rw [List.getElem?_modify]
  refine congrArg (fun f => Option.map f s.cursors[n]?) (funext fun cursor => ?_)
  by_cases hk : k = n
  · rw [if_pos hk, if_pos (congrArg some hk)]
    exact congrArg (Cursor.mk cursor.label) (Location.apply_eq_lastWritten m cursor.loc)
  · rw [if_neg hk, if_neg fun h => hk (Option.some.inj h)]
    rfl

/-- A `move` is written to the cursor that its checker reads from. -/
theorem written_move {s : Session} {i : Nat} {c : Checker} (hc : s.checkers[i]? = some c)
    (n : Nat) (m : Motion) :
    s.written n i (.move m) = if c.cursor = some n then [m] else [] := by
  simp only [written, hc, Option.bind_some]

/-- One step: a cursor stands where it stood, or where it was created, but for what is `written` to
it. -/
theorem getElem?_cursors_step (s : Session) (i : Nat) (st : Step) (n : Nat) :
    (s.step i st).1.cursors[n]? =
      ((s.cursors ++ s.made i st)[n]?).map fun cursor => cursor.moved (s.written n i st) := by
  -- most of the steps neither make a cursor nor move one
  have hkeep (hcursors : (s.step i st).1.cursors = s.cursors) (hmade : s.made i st = [])
      (hwritten : s.written n i st = []) : (s.step i st).1.cursors[n]? =
        ((s.cursors ++ s.made i st)[n]?).map fun cursor => cursor.moved (s.written n i st) := by
    rw [hcursors, hmade, hwritten, List.append_nil]
    exact Option.map_id'.symm
  cases hc : s.checkers[i]? with
  | none =>
    have hnot : ¬i < s.checkers.length := Nat.not_lt.mpr (List.getElem?_eq_none_iff.mp hc)
    have hcursors : (s.step i st).1.cursors = s.cursors := by rw [step, hc]
    cases st with
    | move m =>
      refine hkeep hcursors rfl ?_
      simp only [written, hc]
      rfl
    | newCursor label loc => exact hkeep hcursors (if_neg hnot) rfl
    | _ => exact hkeep hcursors rfl rfl
  | some c =>
    obtain ⟨hi, -⟩ := List.getElem?_eq_some_iff.mp hc
    have hcursors := step_cursors hc st
    cases st with
    | move m =>
      rw [hcursors, written_move hc, show s.made i (.move m) = [] from rfl, List.append_nil]
      simp only [share]
      cases c.cursor with
      | none => exact Option.map_id'.symm
      | some k => exact s.getElem?_cursors_moveCursor k m n
    | newCursor label loc =>
      rw [hcursors, show s.made i (.newCursor label loc) = [⟨label, loc⟩] from if_pos hi]
      exact Option.map_id'.symm
    | intern name label =>
      cases label with
      | none => exact hkeep hcursors rfl rfl
      | some label => exact hkeep hcursors rfl rfl
    | _ => exact hkeep hcursors rfl rfl

/-- A step takes no label back, and those of the cursors it makes come last. -/
theorem labels_step (s : Session) (i : Nat) (st : Step) :
    (s.step i st).1.cursors.map Cursor.label = (s.cursors ++ s.made i st).map Cursor.label := by
  refine List.ext_getElem? fun n => ?_
  rw [List.getElem?_map, List.getElem?_map, getElem?_cursors_step, Option.map_map]
  rfl

/-- So there are as many cursors as there were and as it has made. -/
theorem length_cursors_step (s : Session) (i : Nat) (st : Step) :
    (s.step i st).1.cursors.length = (s.cursors ++ s.made i st).length := by
  have hlength := congrArg List.length (s.labels_step i st)
  rwa [List.length_map, List.length_map] at hlength

/-! ## Attached cursors exist -/

/-- A checker that reads from a cursor reads from one that the session has: its place is below the
length of `cursors`. -/
def WellAttached (s : Session) : Prop :=
  ∀ (i : Nat) (c : Checker) (n : Nat), s.checkers[i]? = some c → c.cursor = some n →
    n < s.cursors.length

/-- A checker is told to attach a cursor that exists, or keeps the one it has. -/
theorem WellAttached.next {s : Session} (hs : s.WellAttached) {i : Nat} {c : Checker}
    (hc : s.checkers[i]? = some c) {st : Step} {n : Nat} (hn : (s.next c st).cursor = some n) :
    n < s.cursors.length := by
  rw [next_cursor] at hn
  cases st with
  | attach label =>
    cases label with
    | none => exact absurd hn (Option.some_ne_none n).symm
    | some label =>
      rcases Option.or_eq_some_iff.mp hn with hfound | ⟨-, hkept⟩
      · obtain ⟨cursor, hcursor, -⟩ := exists_of_cursor? hfound
        exact (List.getElem?_eq_some_iff.mp hcursor).1
      · exact hs i c n hc hkept
  | _ => exact hs i c n hc hn

/-- One step keeps the cursors `WellAttached`, since it drops none. -/
theorem WellAttached.step {s : Session} (hs : s.WellAttached) (i : Nat) (st : Step) :
    (s.step i st).1.WellAttached := by
  intro j c n hc hn
  rw [length_cursors_step, List.length_append]
  refine Nat.lt_of_lt_of_le ?_ (Nat.le_add_right _ _)
  -- the other checkers keep their cursors, and the session only gains some
  by_cases hji : i = j
  · subst hji
    cases hold : s.checkers[i]? with
    | none =>
      rw [Session.step, hold] at hc
      exact absurd (hold.symm.trans hc) (Option.some_ne_none c).symm
    | some c₀ =>
      rw [step_checker hold st] at hc
      obtain rfl := Option.some.inj hc
      exact hs.next hold hn
  · rw [step_checker_of_ne s hji st] at hc
    exact hs j c n hc hn

/-- A whole run keeps the cursors `WellAttached`. -/
theorem WellAttached.run {s : Session} (hs : s.WellAttached) (steps : List (Nat × Step)) :
    (s.run steps).1.WellAttached := by
  induction steps generalizing s with
  | nil => exact hs
  | cons p rest ih =>
    obtain ⟨i, st⟩ := p
    rw [run_cons]
    exact ih (hs.step i st)

/-- In a session that was started in any way, attached cursors exist. -/
theorem wellAttached_of_start {sink : Sink} {configurations : List Options}
    {past : List (Nat × Step)} {s : Session} (hs : ((start sink configurations).run past).1 = s) :
    s.WellAttached := by
  subst hs
  refine WellAttached.run ?_ past
  intro i c n hc hn
  rw [getElem?_checkers_start] at hc
  obtain ⟨o, -, rfl⟩ := Option.map_eq_some_iff.mp hc
  exact absurd hn (Option.some_ne_none n).symm

/-- A cursor that does not exist yet is not moved, as no checker reads from it. -/
theorem WellAttached.written_eq_nil {s : Session} (hs : s.WellAttached) {n : Nat}
    (hn : s.cursors.length ≤ n) (i : Nat) (st : Step) : s.written n i st = [] := by
  cases st with
  | move m =>
    cases hc : s.checkers[i]? with
    | none =>
      simp only [written, hc]
      rfl
    | some c =>
      rw [written_move hc]
      exact if_neg fun hcursor => Nat.not_lt.mpr hn (hs i c n hc hcursor)
  | _ => rfl

/-! ## Runs -/

/-- A whole run: where a cursor stands in the end is told by the place it was created at and by
`writes`, whichever checkers made the movements. -/
theorem WellAttached.getElem?_cursors_run {s : Session} (hs : s.WellAttached)
    (steps : List (Nat × Step)) (n : Nat) :
    (s.run steps).1.cursors[n]? =
      ((s.cursors ++ s.created steps)[n]?).map fun cursor => cursor.moved (s.writes n steps) := by
  induction steps generalizing s with
  | nil =>
    rw [created, writes, List.append_nil]
    exact Option.map_id'.symm
  | cons p rest ih =>
    obtain ⟨i, st⟩ := p
    rw [run_cons, ih (hs.step i st), created, writes, ← List.append_assoc]
    have hlength := s.length_cursors_step i st
    -- either the first step leaves a cursor at `n` behind, whose later movements are told by the
    -- induction, or it does not
    by_cases hn : n < (s.step i st).1.cursors.length
    · have hthere : (s.cursors ++ s.made i st ++ (s.step i st).1.created rest)[n]? =
          (s.cursors ++ s.made i st)[n]? := List.getElem?_append_left (by rw [← hlength]; exact hn)
      rw [hthere, List.getElem?_append_left hn, getElem?_cursors_step, Option.map_map]
      refine congrArg (fun f => Option.map f (s.cursors ++ s.made i st)[n]?)
        (funext fun cursor => ?_)
      exact congrArg (Cursor.mk cursor.label) (Location.lastWritten_append _ _ _).symm
    · -- the cursor is created later on, and was not moved before
      have hn' : (s.cursors ++ s.made i st).length ≤ n := by
        rw [← hlength]
        exact Nat.not_lt.mp hn
      have hwritten : s.written n i st = [] := by
        refine hs.written_eq_nil ?_ i st
        rw [List.length_append] at hn'
        exact Nat.le_of_add_right_le hn'
      rw [List.getElem?_append_right (Nat.not_lt.mp hn), List.getElem?_append_right hn', hlength,
        hwritten, List.nil_append]

/-- A run takes no label back, and those of the cursors it has `created` come last. -/
theorem labels_run (s : Session) (steps : List (Nat × Step)) :
    (s.run steps).1.cursors.map Cursor.label = (s.cursors ++ s.created steps).map Cursor.label := by
  induction steps generalizing s with
  | nil => rw [created, List.append_nil]; rfl
  | cons p rest ih =>
    obtain ⟨i, st⟩ := p
    rw [run_cons, ih, created, List.map_append, labels_step, ← List.map_append, List.append_assoc]

/-- The movements of a run in two parts are those of the first and then those of the second. -/
theorem writes_append (n : Nat) (s : Session) (steps more : List (Nat × Step)) :
    s.writes n (steps ++ more) = s.writes n steps ++ (s.run steps).1.writes n more := by
  induction steps generalizing s with
  | nil => rfl
  | cons p rest ih =>
    obtain ⟨i, st⟩ := p
    rw [List.cons_append, writes, writes, ih, run_cons, List.append_assoc]

end Session

end ShaderCompat
