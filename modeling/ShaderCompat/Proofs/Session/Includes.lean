import ShaderCompat.Proofs.Session.Cursors

/-!
# Included text

While it reads included text a checker has another cursor attached, and afterwards attaches the one
again that it had before. `Session.Nested` says that a checker does so in properly nested regions,
each with a cursor that is attached at no level further out, while other checkers leave those
cursors alone. After such steps the checker reads where it did before, and its location is what it
was but for the movements that it made outside the regions (`Session.Nested.restores`). Together
with what the single steps do to cursors, and with the last movement of each, this is
`Session.cursors_last_written`.
-/

namespace ShaderCompat

/-- The movement that a step asks for. -/
def Step.motions : Step → List Motion
  | .move m => [m]
  | _ => []

namespace Session

/-- The checker at a place takes steps in which regions of included text are properly nested.
`stack` holds the cursors that it has attached at this level and further out, and `own` the
movements that it makes at this level. -/
inductive Nested (i : Nat) : List Nat → Session → List (Nat × Step) → List Motion → Prop where
  | done {stack : List Nat} {s : Session} : Nested i stack s [] []
  /-- Another checker takes a step, and moves none of the cursors. -/
  | other {stack : List Nat} {s : Session} {j : Nat} {st : Step} {rest : List (Nat × Step)}
      {own : List Motion} (hj : j ≠ i) (hquiet : ∀ n ∈ stack, s.written n j st = [])
      (hrest : Nested i stack (s.step j st).1 rest own) : Nested i stack s ((j, st) :: rest) own
  /-- The checker takes a step that attaches nothing. -/
  | plain {stack : List Nat} {s : Session} {st : Step} {rest : List (Nat × Step)}
      {own : List Motion} (hst : ∀ label, st ≠ .attach label)
      (hrest : Nested i stack (s.step i st).1 rest own) :
      Nested i stack s ((i, st) :: rest) (st.motions ++ own)
  /-- The checker attaches a cursor, and after the region the one that it was told it had before. -/
  | region {stack : List Nat} {s : Session} {label : String} (n : Nat) (back : Option String)
      (body : List (Nat × Step)) (within : List Motion) {rest : List (Nat × Step)}
      {own : List Motion} (hlabel : s.cursor? label = some n) (hfresh : n ∉ stack)
      (hback : (s.step i (.attach (some label))).2.answer = .ok (.label back))
      (hbody : Nested i (n :: stack) (s.step i (.attach (some label))).1 body within)
      (hrest : Nested i stack
        (((s.step i (.attach (some label))).1.run body).1.step i (.attach back)).1 rest own) :
      Nested i stack s ((i, .attach (some label)) :: (body ++ (i, .attach back) :: rest)) own

section

variable {s : Session} {i : Nat} {c : Checker}

/-! ## Single steps -/

/-- The cursor at the place that a checker reads from is the one `attached`. -/
theorem attached_of_cursor {n : Nat} {cursor : Cursor} (hn : c.cursor = some n)
    (hcursor : s.cursors[n]? = some cursor) : s.attached c = some cursor := by
  rw [attached, hn, Option.bind_some, hcursor]

/-- A checker that reads from no cursor has none `attached`. -/
theorem attached_of_none (hn : c.cursor = none) : s.attached c = none := by
  rw [attached, hn, Option.bind_none]

/-- The cursor that a checker reads from is there. -/
theorem WellAttached.exists_cursor (hs : s.WellAttached) (hc : s.checkers[i]? = some c) {n : Nat}
    (hn : c.cursor = some n) : ∃ cursor, s.cursors[n]? = some cursor :=
  ⟨_, List.getElem?_eq_getElem (hs i c n hc hn)⟩

/-- A checker is told the label of the cursor that it had attached. -/
theorem step_attach (hc : s.checkers[i]? = some c) {label : Option String}
    (hlabel : ∀ l, label = some l → ∃ n, s.cursor? l = some n) :
    s.step i (.attach label) =
      (s.withChecker i { c with cursor := s.cursorAfter c label },
        quiet (.label ((s.attached c).map Cursor.label))) := by
  rw [step_eq_stepWith hc]
  cases label with
  | none => rfl
  | some l =>
    obtain ⟨n, hn⟩ := hlabel l rfl
    simp only [stepWith, cursorAfter, hn]
    rfl

/-- What a checker is told when it attaches a cursor stands for the one that it had. -/
theorem WellAttached.returned (hs : s.WellAttached) (hc : s.checkers[i]? = some c)
    (hlabels : (s.cursors.map Cursor.label).Nodup) :
    ((s.attached c).map Cursor.label).bind s.cursor? = c.cursor := by
  cases hn : c.cursor with
  | none =>
    rw [attached_of_none hn]
    rfl
  | some n =>
    obtain ⟨cursor, hcursor⟩ := hs.exists_cursor hc hn
    rw [attached_of_cursor hn hcursor]
    exact cursor?_of_nodup hlabels hcursor

/-- What the steps that are about cursors do, for the checker at a place. -/
structure CursorSteps (s : Session) (i : Nat) (c : Checker) : Prop where
  /-- The location is exactly that of the cursor the checker reads from. -/
  location : ∀ n, c.cursor = some n → ∃ cursor, s.cursors[n]? = some cursor ∧
    s.step i .location = (s, quiet (.location cursor.loc))
  /-- A movement moves that cursor. -/
  move : ∀ n m, c.cursor = some n → s.step i (.move m) = (s.moveCursor n m, quiet .done)
  /-- Without a cursor there is no location and no movement, and nothing changes. -/
  noScanner : c.cursor = none → ∀ st, st = .location ∨ (∃ m, st = .move m) →
    s.step i st = (s, failed (.setup .noScanner))
  /-- There is no other reason for that failure. -/
  scanner : ∀ st, st = .location ∨ (∃ m, st = .move m) →
    ((s.step i st).2.answer = .error (.setup .noScanner) ↔ c.cursor = none)
  /-- Attaching a cursor, or none, alters none; it is answered by the cursor that was attached. -/
  attach : ∀ label, (∀ l, label = some l → ∃ n, s.cursor? l = some n) →
    s.step i (.attach label) = (s.withChecker i { c with cursor := s.cursorAfter c label },
      quiet (.label ((s.attached c).map Cursor.label)))
  returned : (s.cursors.map Cursor.label).Nodup →
    ((s.attached c).map Cursor.label).bind s.cursor? = c.cursor
  /-- No other step alters a cursor. -/
  other : ∀ st, (∀ m, st ≠ .move m) → (∀ label loc, st ≠ .newCursor label loc) →
    (s.step i st).1.cursors = s.cursors

/-- Where attached cursors exist, the steps that are about cursors do what `CursorSteps` says. -/
theorem WellAttached.cursorSteps (hs : s.WellAttached) (hc : s.checkers[i]? = some c) :
    s.CursorSteps i c := by
  have hlocation (n : Nat) (hn : c.cursor = some n) : ∃ cursor, s.cursors[n]? = some cursor ∧
      s.step i .location = (s, quiet (.location cursor.loc)) := by
    obtain ⟨cursor, hcursor⟩ := hs.exists_cursor hc hn
    refine ⟨cursor, hcursor, ?_⟩
    rw [step_eq_stepWith hc]
    simp only [stepWith, currentLocation, attached_of_cursor hn hcursor]
    rfl
  have hmove (n : Nat) (m : Motion) (hn : c.cursor = some n) :
      s.step i (.move m) = (s.moveCursor n m, quiet .done) := by
    rw [step_eq_stepWith hc]
    simp only [stepWith, hn]
  have hfails (hn : c.cursor = none) (st : Step) (hst : st = .location ∨ ∃ m, st = .move m) :
      s.step i st = (s, failed (.setup .noScanner)) := by
    rw [step_eq_stepWith hc]
    rcases hst with rfl | ⟨m, rfl⟩
    · simp only [stepWith, currentLocation, attached_of_none hn]
      rfl
    · simp only [stepWith, hn]
  refine ⟨hlocation, hmove, hfails, ?_, fun label => step_attach hc, hs.returned hc, ?_⟩
  · intro st hst
    constructor
    · intro hanswer
      refine Option.eq_none_iff_forall_ne_some.mpr fun n hn => ?_
      rcases hst with rfl | ⟨m, rfl⟩
      · obtain ⟨cursor, -, hstep⟩ := hlocation n hn
        rw [hstep] at hanswer
        exact absurd hanswer (by simp [quiet])
      · rw [hmove n m hn] at hanswer
        exact absurd hanswer (by simp [quiet])
    · intro hn
      rw [hfails hn st hst]
      rfl
  · intro st hmoves hnew
    rw [step_cursors hc, share_cursors s c hmoves hnew]

/-! ## Nested regions -/

/-- What a step of the checker itself moves is the cursor that it reads from. -/
theorem written_eq (hc : s.checkers[i]? = some c) (n : Nat) (st : Step) :
    s.written n i st = if c.cursor = some n then st.motions else [] := by
  cases st with
  | move m => exact written_move hc n m
  | _ => exact (ite_self []).symm

/-- The label of a cursor that a checker had attached still stands for it after a run. -/
theorem WellAttached.cursorAfter_run (hs : s.WellAttached) (hc : s.checkers[i]? = some c)
    (steps : List (Nat × Step)) (hlabels : ((s.run steps).1.cursors.map Cursor.label).Nodup)
    (c' : Checker) :
    (s.run steps).1.cursorAfter c' ((s.attached c).map Cursor.label) = c.cursor := by
  cases hn : c.cursor with
  | none =>
    rw [attached_of_none hn]
    rfl
  | some n =>
    obtain ⟨cursor, hcursor⟩ := hs.exists_cursor hc hn
    have hthere : (s.run steps).1.cursors[n]? = some (cursor.moved (s.writes n steps)) := by
      rw [hs.getElem?_cursors_run, List.getElem?_append_left (hs i c n hc hn), hcursor]
      rfl
    have hfound : (s.run steps).1.cursor? (cursor.moved (s.writes n steps)).label = some n :=
      cursor?_of_nodup hlabels hthere
    rw [attached_of_cursor hn hcursor]
    exact (congrArg (fun x => Option.or x c'.cursor) hfound).trans rfl

/-- Labels that are given once by the end of a run were given once before. -/
theorem nodup_labels_of_run (steps : List (Nat × Step))
    (h : ((s.run steps).1.cursors.map Cursor.label).Nodup) :
    (s.cursors.map Cursor.label).Nodup := by
  rw [labels_run, List.map_append] at h
  exact h.of_append_left

/-- After properly nested regions the checker reads from the cursor it read from before. What it has
moved of the cursors in `stack` is the one of this level, by the movements in `own`. -/
theorem Nested.restores {stack : List Nat} {steps : List (Nat × Step)} {own : List Motion}
    (h : Nested i stack s steps own) (hs : s.WellAttached) (hc : s.checkers[i]? = some c)
    (hlabels : ((s.run steps).1.cursors.map Cursor.label).Nodup) :
    ∃ c', (s.run steps).1.checkers[i]? = some c' ∧ c'.cursor = c.cursor ∧
      ∀ n ∈ stack, s.writes n steps = if c.cursor = some n then own else [] := by
  -- a region is two nested runs, the one within it with its cursor on the stack
  induction h generalizing c with
  | done => exact ⟨c, hc, rfl, fun n _ => (ite_self []).symm⟩
  | @other stack s j st rest own hj hquiet hrest ih =>
    rw [run_cons] at hlabels ⊢
    have hc₁ : (s.step j st).1.checkers[i]? = some c := by
      rw [step_checker_of_ne s hj, hc]
    obtain ⟨c', hc', hcursor, hwrites⟩ := ih (hs.step j st) hc₁ hlabels
    refine ⟨c', hc', hcursor, fun n hn => ?_⟩
    rw [writes, hquiet n hn, List.nil_append, hwrites n hn]
  | @plain stack s st rest own hst hrest ih =>
    rw [run_cons] at hlabels ⊢
    have hcursor₁ : (s.next c st).cursor = c.cursor := by
      rw [next_cursor]
      cases st with
      | attach label => exact absurd rfl (hst label)
      | _ => rfl
    obtain ⟨c', hc', hcursor, hwrites⟩ := ih (hs.step i st) (step_checker hc st) hlabels
    refine ⟨c', hc', hcursor.trans hcursor₁, fun n hn => ?_⟩
    rw [writes, written_eq hc, hwrites n hn, hcursor₁]
    by_cases hcn : c.cursor = some n
    · rw [if_pos hcn, if_pos hcn, if_pos hcn]
    · rw [if_neg hcn, if_neg hcn, if_neg hcn]
      rfl
  | @region stack s label n back body within rest own hlabel hfresh hback hbody hrest ihbody
      ihrest =>
    have hc₁ := step_checker hc (.attach (some label))
    have hcursor₁ : (s.next c (.attach (some label))).cursor = some n := by
      rw [next_cursor]
      show (s.cursor? label).or c.cursor = some n
      rw [hlabel]
      rfl
    rw [run_cons, run_append, run_cons] at hlabels ⊢
    have hlabels₂ := nodup_labels_of_run [(i, .attach back)] (nodup_labels_of_run rest hlabels)
    obtain ⟨c₂, hc₂, hcursor₂, hwrites₂⟩ := ihbody (hs.step i _) hc₁ hlabels₂
    -- what the checker was told when it entered the region stands for what it had
    have htold : back = (s.attached c).map Cursor.label := by
      rw [step_attach hc (by rintro l ⟨⟩; exact ⟨n, hlabel⟩)] at hback
      exact (Answer.label.inj (Except.ok.inj hback)).symm
    have hcursor₃ : (((s.step i (.attach (some label))).1.run body).1.next c₂
        (.attach back)).cursor = c.cursor := by
      rw [next_cursor, htold]
      exact hs.cursorAfter_run hc ((i, .attach (some label)) :: body) hlabels₂ c₂
    obtain ⟨c', hc', hcursor, hwrites⟩ :=
      ihrest ((hs.step i _).run body |>.step i _) (step_checker hc₂ (.attach back)) hlabels
    refine ⟨c', hc', hcursor.trans hcursor₃, fun m hm => ?_⟩
    -- within the region it moved none of the cursors of this level or further out
    have hne : ¬some n = some m := fun h => hfresh (Option.some.inj h ▸ hm)
    have hbody_m := hwrites₂ m (List.mem_cons_of_mem n hm)
    rw [hcursor₁, if_neg hne] at hbody_m
    rw [writes, writes_append, hbody_m, writes, hwrites m hm, hcursor₃]
    rfl

/-- After properly nested regions the location of the checker is what it was, but for the movements
in `own`. -/
theorem Nested.currentLocation_eq {steps : List (Nat × Step)} {own : List Motion}
    (h : Nested i c.cursor.toList s steps own) (hs : s.WellAttached)
    (hc : s.checkers[i]? = some c)
    (hlabels : ((s.run steps).1.cursors.map Cursor.label).Nodup) :
    ∃ c', (s.run steps).1.checkers[i]? = some c' ∧ c'.cursor = c.cursor ∧
      (s.run steps).1.currentLocation c' =
        (s.currentLocation c).map fun loc => loc.lastWritten own := by
  obtain ⟨c', hc', hcursor, hwrites⟩ := h.restores hs hc hlabels
  refine ⟨c', hc', hcursor, ?_⟩
  rw [currentLocation, currentLocation]
  cases hn : c.cursor with
  | none =>
    rw [attached_of_none hn, attached_of_none (hcursor.trans hn)]
    rfl
  | some n =>
    obtain ⟨cursor, hcur⟩ := hs.exists_cursor hc hn
    have hmoved : (s.run steps).1.cursors[n]? = some (cursor.moved own) := by
      have hown := hwrites n (by rw [hn]; exact List.mem_singleton_self n)
      rw [if_pos hn] at hown
      rw [hs.getElem?_cursors_run, List.getElem?_append_left (hs i c n hc hn), hcur, hown]
      rfl
    rw [attached_of_cursor hn hcur, attached_of_cursor (hcursor.trans hn) hmoved]
    rfl

end

/-! ## Cursors over whole runs -/

/-- In a session that was started in any way, checkers share cursors. Over every run each field of
each cursor ends up as the last movement of it says that a checker made while it read from that
cursor, or, if there is none, as it was. What the single steps do to cursors `CursorSteps` says. And
if a checker, in properly nested regions, attaches other cursors and again those that it was told it
had before, while other checkers leave them alone, it ends up reading where it did, and its location
is what it was but for the movements that it made outside the regions. -/
theorem cursors_last_written {sink : Sink} {configurations : List Options}
    {past : List (Nat × Step)} {s : Session} (hs : ((start sink configurations).run past).1 = s) :
    (∀ (steps : List (Nat × Step)) (n : Nat), (s.run steps).1.cursors[n]? =
      ((s.cursors ++ s.created steps)[n]?).map fun cursor => cursor.moved (s.writes n steps)) ∧
    ∀ (i : Nat) (c : Checker), s.checkers[i]? = some c →
      s.CursorSteps i c ∧
      ∀ (steps : List (Nat × Step)) (own : List Motion), Nested i c.cursor.toList s steps own →
        ((s.run steps).1.cursors.map Cursor.label).Nodup →
        ∃ c', (s.run steps).1.checkers[i]? = some c' ∧ c'.cursor = c.cursor ∧
          (s.run steps).1.currentLocation c' =
            (s.currentLocation c).map fun loc => loc.lastWritten own := by
  have hattached : s.WellAttached := wellAttached_of_start hs
  refine ⟨hattached.getElem?_cursors_run, fun i c hc => ⟨hattached.cursorSteps hc, ?_⟩⟩
  intro steps own hnested hlabels
  exact hnested.currentLocation_eq hattached hc hlabels

/-- One region within another, with a movement in each, while another checker moves its cursor. -/
theorem cursors_last_written_includes :
    ∃ s c c', ((start (.recording []) [{}, {}]).run
        [(0, .newCursor "main" (.start 0)), (0, .newCursor "other" (.start 1)),
          (0, .newCursor "a" (.start 2)), (0, .newCursor "b" (.start 3)),
          (0, .attach (some "main")), (1, .attach (some "other"))]).1 = s ∧
      s.checkers[0]? = some c ∧
      (s.run [(0, .move (.line 10)), (0, .attach (some "a")), (0, .move (.name "a.glsl")),
        (1, .move (.line 99)), (0, .attach (some "b")), (0, .move (.line 5)),
        (0, .attach (some "a")), (0, .attach (some "main"))]).1.checkers[0]? = some c' ∧
      c'.cursor = c.cursor ∧
      (s.run [(0, .move (.line 10)), (0, .attach (some "a")), (0, .move (.name "a.glsl")),
        (1, .move (.line 99)), (0, .attach (some "b")), (0, .move (.line 5)),
        (0, .attach (some "a")), (0, .attach (some "main"))]).1.currentLocation c' =
          .ok { line := 10 } := by
  obtain ⟨s, hs⟩ : ∃ s, ((start (.recording []) [{}, {}]).run
      [(0, .newCursor "main" (.start 0)), (0, .newCursor "other" (.start 1)),
        (0, .newCursor "a" (.start 2)), (0, .newCursor "b" (.start 3)),
        (0, .attach (some "main")), (1, .attach (some "other"))]).1 = s := ⟨_, rfl⟩
  obtain ⟨-, hchecker⟩ := cursors_last_written hs
  subst hs
  obtain ⟨-, hnested⟩ := hchecker 0 _ rfl
  have hregions := hnested
    [(0, .move (.line 10)), (0, .attach (some "a")), (0, .move (.name "a.glsl")),
      (1, .move (.line 99)), (0, .attach (some "b")), (0, .move (.line 5)),
      (0, .attach (some "a")), (0, .attach (some "main"))] [.line 10] ?_ (by decide +kernel)
  · obtain ⟨c', hc', hcursor, hlocation⟩ := hregions
    exact ⟨_, _, c', rfl, rfl, hc', hcursor, hlocation⟩
  · refine .plain (fun _ => Step.noConfusion) ?_
    refine .region 2 (some "main") [(0, .move (.name "a.glsl")), (1, .move (.line 99)),
      (0, .attach (some "b")), (0, .move (.line 5)), (0, .attach (some "a"))] [.name "a.glsl"]
      (by decide +kernel) (by decide +kernel) (by decide +kernel) ?_ .done
    refine .plain (fun _ => Step.noConfusion) (.other (by decide) (by decide +kernel) ?_)
    refine .region 3 (some "a") [(0, .move (.line 5))] [.line 5]
      (by decide +kernel) (by decide +kernel) (by decide +kernel) ?_ .done
    exact .plain (fun _ => Step.noConfusion) .done

end Session

end ShaderCompat
