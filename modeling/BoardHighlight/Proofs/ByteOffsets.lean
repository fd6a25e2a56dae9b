import BoardHighlight.Proofs.CursorSteps

/-!
# Cursors as offsets in bytes

A cursor may be held as two bare offsets into the bytes of its line. Nothing then keeps them between
characters: a character is taken by adding its size, and text is cut out of the line by offsets,
which has no answer if one of them is out of range or inside a character. `Offsets.perform?` does
each operation in this way. From the front of a line, no sequence of operations, snapshots and
returns ever lacks an answer, and the answers are those of a list of characters with two indices.
-/

namespace BoardHighlight
set_option autoImplicit false

namespace Cursor
open String (ofList)

namespace Offsets

/-- The text between two offsets, if they are in order and both between characters of the line. -/
def slice? (line : String) (i j : Nat) : Option String :=
  if h : String.Pos.Raw.IsValid line ⟨i⟩ ∧ String.Pos.Raw.IsValid line ⟨j⟩ ∧ i ≤ j then
    some (line.extract (line.pos ⟨i⟩ h.1) (line.pos ⟨j⟩ h.2.1))
  else none

def remaining? (line : String) (places : Places) : Option String :=
  slice? line places.position line.utf8ByteSize

/-- A byte below 128 is read as it is; for any other one the rest of the line is decoded. -/
def peek? (line : String) (places : Places) : Option (Option Char) :=
  match line.toByteArray[places.position]? with
  | none => some none
  | some byte =>
    if byte < 128 then some (some (Char.ofUInt8 byte))
    else (remaining? line places).map (·.toList.head?)

def forward (c : Char) (places : Places) : Places :=
  { places with position := places.position + c.utf8Size }

def next? (line : String) (places : Places) : Option (Option Char × Places) := do
  match ← peek? line places with
  | some c => some (some c, forward c places)
  | none => some (none, places)

def eat? (line : String) (test : Char → Bool) (places : Places) : Option (Bool × Places) := do
  match ← peek? line places with
  | some c => if test c then some (true, forward c places) else some (false, places)
  | none => some (false, places)

theorem lt_of_peek? {line : String} {places : Places} {c : Char}
    (h : peek? line places = some (some c)) : places.position < line.utf8ByteSize := by
  unfold peek? at h
  split at h
  · cases h
  · rename_i byte hbyte
    rw [← String.size_toByteArray]
    exact (getElem?_eq_some_iff.mp hbyte).1

/-- Takes characters as long as they pass, and tells whether there were any. -/
def eatWhile? (line : String) (test : Char → Bool) (places : Places) : Option (Bool × Places) :=
  match h : peek? line places with
  | none => none
  | some none => some (false, places)
  | some (some c) =>
    -- the loop ends because a character was read before the end of the line
    have := lt_of_peek? h
    if test c then (eatWhile? line test (forward c places)).map fun (_, behind) => (true, behind)
    else some (false, places)
termination_by line.utf8ByteSize - places.position
decreasing_by
  have hpos := c.utf8Size_pos
  simp only [forward]
  omega

section EatWhile
variable {line : String} {places : Places} {test : Char → Bool} {c : Char}

theorem eatWhile?_of_none (h : peek? line places = some none) :
    eatWhile? line test places = some (false, places) := by
  rw [eatWhile?]
  split <;> simp_all

theorem eatWhile?_of_pass (h : peek? line places = some (some c)) (hc : test c = true) :
    eatWhile? line test places =
      (eatWhile? line test (forward c places)).map fun (_, behind) => (true, behind) := by
  rw [eatWhile?]
  split <;> simp_all

theorem eatWhile?_of_fail (h : peek? line places = some (some c)) (hc : ¬test c = true) :
    eatWhile? line test places = some (false, places) := by
  rw [eatWhile?]
  split <;> simp_all

end EatWhile

/-- The size of the characters that pass the tests, if every test has one. -/
def width? : List (Char → Bool) → List Char → Option Nat
  | [], _ => some 0
  | _ :: _, [] => none
  | test :: tests, c :: cs => if test c then (width? tests cs).map (c.utf8Size + ·) else none

def matchSeq? (line : String) (tests : List (Char → Bool)) (places : Places) :
    Option (Bool × Places) := do
  let rest ← remaining? line places
  match width? tests rest.toList with
  | some width => some (true, { places with position := places.position + width })
  | none => some (false, places)

/-- A cursor over the bytes of a line; its places are offsets, and a cut that cannot be made leaves
an operation without an answer. -/
def perform? (line : String) (operation : Operation) (places : Places) :
    Option (Answer × Places) :=
  match operation with
  | .peek => (peek? line places).map (.char ·, places)
  | .next => (next? line places).map fun (c, places) => (.char c, places)
  | .eat test => (eat? line test places).map fun (value, places) => (.truth value, places)
  | .eatWhile test => (eatWhile? line test places).map fun (value, places) => (.truth value, places)
  | .matchSeq tests =>
    (matchSeq? line tests places).map fun (value, places) => (.truth value, places)
  | .skipToEnd => some (.done, { places with position := line.utf8ByteSize })
  | .markStart => some (.done, { places with start := places.position })
  | .atEnd => some (.truth (line.utf8ByteSize ≤ places.position), places)
  | .current => (slice? line places.start places.position).map (.text ·.toList, places)
  | .remaining => (remaining? line places).map (.text ·.toList, places)
  | .startColumn => (slice? line 0 places.start).map fun front => (.number (front.length + 1), places)
  | .startOffset => some (.number places.start, places)
  | .offset => some (.number places.position, places)

end Offsets

variable {line : String}

def offsets (cursor : Cursor line) : Places := ⟨cursor.startOffset, cursor.offset⟩

/-- Every cursor cuts its line in three. -/
theorem exists_view (cursor : Cursor line) : ∃ before current rest, View cursor before current rest := by
  have hstart := cursor.start.splits
  have hposition := cursor.position.splits
  obtain ⟨between, hfront, hback⟩ := (hstart.le_iff_exists_eq_append hposition).mp cursor.start_le
  refine ⟨(line.sliceTo cursor.start).copy.toList, between.toList,
    (line.sliceFrom cursor.position).copy.toList, ?_, ?_⟩
  · simpa [String.ofList_append, ← hback] using hstart
  · simpa [String.ofList_append, ← hfront] using hposition

namespace Offsets
variable (cursor : Cursor line)

theorem slice?_eq {p q : line.Pos} (h : p ≤ q) :
    slice? line p.offset.byteIdx q.offset.byteIdx = some (line.extract p q) := by
  have hle : p.offset.byteIdx ≤ q.offset.byteIdx := h
  rw [slice?, dif_pos ⟨p.isValid, q.isValid, hle⟩]
  rfl

theorem remaining?_offsets : remaining? line cursor.offsets = some cursor.remaining :=
  slice?_eq (String.Pos.le_endPos _)

theorem current?_offsets :
    slice? line cursor.offsets.start cursor.offsets.position = some cursor.current :=
  slice?_eq cursor.start_le

theorem front?_offsets :
    slice? line 0 cursor.offsets.start = some (line.extract line.startPos cursor.start) :=
  slice?_eq (String.Pos.startPos_le _)

theorem size_le_offset_iff : line.utf8ByteSize ≤ cursor.offset ↔ cursor.atEnd = true := by
  rw [atEnd, beq_iff_eq]
  constructor
  · intro h
    by_contra hne
    have hlt := cursor.position.byteIdx_lt_utf8ByteSize hne
    exact absurd h (Nat.not_le_of_lt hlt)
  · intro h
    rw [offset, h]
    exact Nat.le_refl _

theorem peek?_offsets : peek? line cursor.offsets = some cursor.peek? := by
  obtain ⟨before, current, rest, h⟩ := cursor.exists_view
  by_cases hend : cursor.position = line.endPos
  · have hbyte : line.toByteArray[cursor.offsets.position]? = none := by
      apply getElem?_neg
      simp [offsets, offset, hend]
    rw [peek?, hbyte, h.peek?_eq, h.position_eq_endPos_iff.mp hend]
    rfl
  · have hlt : cursor.position.offset.byteIdx < line.toByteArray.size := by
      simpa using cursor.position.byteIdx_lt_utf8ByteSize hend
    have hbyte : line.toByteArray[cursor.offsets.position]? = some (cursor.position.byte hend) := by
      apply getElem?_eq_some_iff.mpr
      refine ⟨hlt, ?_⟩
      simp [offsets, offset, String.Pos.byte, String.Slice.Pos.byte, String.Slice.getUTF8Byte,
        String.getUTF8Byte]
    rw [peek?, hbyte]
    dsimp only
    split
    · rename_i hascii
      rw [Cursor.peek?, charAt?_of_ne hend, get_eq_of_byte_lt hend hascii]
    · rw [remaining?_offsets, h.peek?_eq, Option.map_some, h.toList_remaining]

section Taking
variable {cursor} {before current rest : List Char} {c : Char}

theorem offsets_advance (h : View cursor before current (c :: rest)) :
    cursor.advance.offsets = forward c cursor.offsets := by
  obtain ⟨hne, hget, -⟩ := splits_next h.position
  rw [advance, dif_neg hne, offsets, offset, moveTo_position, String.Pos.byteIdx_offset_next, hget]
  rfl

theorem eatWhile_of_stop {test : Char → Bool} (h : runEnd test cursor.position = cursor.position) :
    cursor.eatWhile test = (false, cursor) := by
  simp only [Cursor.eatWhile, h, bne_self_eq_false]
  rfl

theorem eatWhile_cons {test : Char → Bool} (h : View cursor before current (c :: rest))
    (hc : test c = true) :
    cursor.eatWhile test = (true, (cursor.advance.eatWhile test).2) := by
  obtain ⟨hne, hget, -⟩ := splits_next h.position
  have hrun : runEnd test cursor.position = runEnd test (cursor.position.next hne) := by
    rw [runEnd, dif_neg hne, hget, if_pos hc]
  apply Prod.ext
  · rw [(h.eatWhile test).1, List.takeWhile_cons, if_pos hc]
    rfl
  · simp only [Cursor.eatWhile, advance, dif_neg hne, moveTo_position, hrun]
    rfl

theorem eatWhile?_offsets (test : Char → Bool) (h : View cursor before current rest) :
    eatWhile? line test cursor.offsets =
      some ((cursor.eatWhile test).1, (cursor.eatWhile test).2.offsets) := by
  have hpeek := peek?_offsets cursor
  rw [h.peek?_eq] at hpeek
  -- the cursor is free, as each character that passes moves it
  induction rest generalizing cursor current with
  | nil =>
    have hstop : runEnd test cursor.position = cursor.position := by
      rw [runEnd, dif_pos (h.position_eq_endPos_iff.mpr rfl)]
    rw [eatWhile?_of_none hpeek, eatWhile_of_stop hstop]
  | cons c rest ih =>
    by_cases hc : test c = true
    · have hnext := ih h.advance (by rw [peek?_offsets, h.advance.peek?_eq])
      rw [eatWhile?_of_pass hpeek hc, ← offsets_advance h, hnext, eatWhile_cons h hc]
      rfl
    · obtain ⟨hne, hget, -⟩ := splits_next h.position
      have hstop : runEnd test cursor.position = cursor.position := by
        rw [runEnd, dif_neg hne, hget, if_neg hc]
      rw [eatWhile?_of_fail hpeek hc, eatWhile_of_stop hstop]

end Taking

/-- The width of the characters that pass is the way from the position to the end of the
sequence. -/
theorem width?_eq (tests : List (Char → Bool)) {position : line.Pos} {front rest : List Char}
    (h : position.Splits (ofList front) (ofList rest)) :
    (width? tests rest).map (position.offset.byteIdx + ·) =
      (seqEnd? tests position).map (·.offset.byteIdx) := by
  induction tests generalizing position front rest with
  | nil => rfl
  | cons test tests ih =>
    cases rest with
    | nil =>
      rw [seqEnd?, dif_pos (eq_endPos_of_splits h)]
      rfl
    | cons c rest =>
      obtain ⟨hne, hget, hnext⟩ := splits_next h
      rw [seqEnd?, dif_neg hne, hget, width?]
      by_cases hc : test c = true
      · rw [if_pos hc, if_pos hc, ← ih hnext, String.Pos.byteIdx_offset_next, hget, Option.map_map]
        congr 1
        funext width
        exact (Nat.add_assoc _ _ _).symm
      · rw [if_neg hc, if_neg hc]
        rfl

theorem matchSeq?_offsets (tests : List (Char → Bool)) :
    matchSeq? line tests cursor.offsets =
      some ((cursor.matchSeq tests).1, (cursor.matchSeq tests).2.offsets) := by
  obtain ⟨before, current, rest, h⟩ := cursor.exists_view
  have hwidth := width?_eq tests h.position
  rw [matchSeq?, remaining?_offsets]
  simp only [Option.bind_eq_bind, Option.bind_some, h.toList_remaining]
  cases hseq : seqEnd? tests cursor.position with
  | none =>
    rw [hseq, Option.map_none, Option.map_eq_none_iff] at hwidth
    rw [matchSeq_of_none hseq, hwidth]
  | some stop =>
    rw [hseq, Option.map_some, Option.map_eq_some_iff] at hwidth
    obtain ⟨width, hsome, hstop⟩ := hwidth
    rw [matchSeq_of_some hseq]
    simp only [hsome, offsets, offset, moveTo_position, ← hstop]
    rfl

/-- Each operation on the offsets has the answer of the cursor and ends at its offsets. -/
theorem perform?_offsets (operation : Operation) :
    perform? line operation cursor.offsets =
      some ((cursor.perform operation).1, (cursor.perform operation).2.offsets) := by
  obtain ⟨before, current, rest, h⟩ := cursor.exists_view
  cases operation with
  | peek => rw [perform?, peek?_offsets]; rfl
  | next =>
    rw [perform?, next?, peek?_offsets, h.peek?_eq]
    simp only [perform, next, h.peek?_eq]
    cases rest with
    | nil =>
      rw [h.advance_nil]
      rfl
    | cons c rest =>
      rw [offsets_advance h]
      rfl
  | eat test =>
    rw [perform?, eat?, peek?_offsets, h.peek?_eq]
    simp only [perform, eat, h.peek?_eq]
    cases rest with
    | nil => rfl
    | cons c rest =>
      by_cases hc : test c = true
      · simp [hc, offsets_advance h]
      · simp [hc]
  | eatWhile test => rw [perform?, eatWhile?_offsets test h]; rfl
  | matchSeq tests => rw [perform?, matchSeq?_offsets]; rfl
  | skipToEnd => rfl
  | markStart => rfl
  | atEnd =>
    have hend : decide (line.utf8ByteSize ≤ cursor.offset) = cursor.atEnd := by
      rw [Bool.eq_iff_iff, decide_eq_true_iff, size_le_offset_iff]
    exact congrArg (fun value => some (Answer.truth value, cursor.offsets)) hend
  | current => rw [perform?, current?_offsets]; rfl
  | remaining => rw [perform?, remaining?_offsets]; rfl
  | startColumn => rw [perform?, front?_offsets]; rfl
  | startOffset => rfl
  | offset => rfl

end Offsets

/-- What is known of a cursor for which a list of characters has the indices `places` and the bytes
of the line have the offsets `held`. -/
structure StandsAt (places held : Places) (cursor : Cursor line) : Prop where
  start_le : places.start ≤ places.position
  position_le : places.position ≤ line.toList.length
  held_eq : held = cursor.offsets
  startOffset_eq : cursor.startOffset = (ofList (line.toList.take places.start)).utf8ByteSize
  offset_eq : cursor.offset = (ofList (line.toList.take places.position)).utf8ByteSize
  startOffset_le : cursor.startOffset ≤ cursor.offset
  offset_le : cursor.offset ≤ line.utf8ByteSize
  peek?_eq : cursor.peek? = cursor.remaining.toList.head?
  peek?_held : Offsets.peek? line held = some cursor.remaining.toList.head?
  lexeme_and_rest : cursor.current.toList ++ cursor.remaining.toList =
    line.toList.drop places.start
  eatWhile_longest : ∀ test, ∃ taken rest, cursor.remaining.toList = taken ++ rest ∧
    (∀ c ∈ taken, test c = true) ∧ (∀ c ∈ rest.head?, test c = false) ∧
    (cursor.eatWhile test).1 = !taken.isEmpty ∧
    (cursor.eatWhile test).2.current.toList = cursor.current.toList ++ taken ∧
    (cursor.eatWhile test).2.remaining.toList = rest
  matchSeq_passes : ∀ tests, Passes tests cursor.remaining.toList →
    (cursor.matchSeq tests).1 = true ∧
    (cursor.matchSeq tests).2.current.toList =
      cursor.current.toList ++ cursor.remaining.toList.take tests.length ∧
    (cursor.matchSeq tests).2.remaining.toList = cursor.remaining.toList.drop tests.length
  matchSeq_fails : ∀ tests, ¬Passes tests cursor.remaining.toList →
    cursor.matchSeq tests = (false, cursor)

theorem head?_dropWhile_eq_false {test : Char → Bool} {cs : List Char} {c : Char}
    (h : c ∈ (cs.dropWhile test).head?) : test c = false := by
  have hhead := List.head?_dropWhile_not test cs
  rwa [Option.mem_def.mp h] at hhead

theorem InStep.standsAt {places : Places} {cursor : Cursor line} (h : InStep places cursor) :
    StandsAt places cursor.offsets cursor := by
  obtain ⟨before, current, rest, hview, rfl⟩ := h
  have hcurrent := hview.toList_current
  have hremaining := hview.toList_remaining
  constructor
  case start_le => simp
  case position_le =>
    rw [hview.length_eq]
    exact Nat.le_add_right _ _
  case held_eq => rfl
  case startOffset_eq => exact hview.startOffset_eq_take
  case offset_eq => exact hview.offset_eq_take
  case startOffset_le => exact cursor.start_le
  case offset_le => exact cursor.position.isValid.le_utf8ByteSize
  case peek?_eq => rw [hview.peek?_eq, hremaining]
  case peek?_held => rw [Offsets.peek?_offsets, hview.peek?_eq, hremaining]
  case lexeme_and_rest =>
    rw [hcurrent, hremaining, hview.toList_eq, List.append_assoc, List.drop_left]
  case eatWhile_longest =>
    intro test
    obtain ⟨htruth, hbehind⟩ := hview.eatWhile test
    refine ⟨rest.takeWhile test, rest.dropWhile test, ?_, ?_, ?_, htruth, ?_, ?_⟩
    · rw [hremaining, List.takeWhile_append_dropWhile]
    · exact fun c hc => List.mem_takeWhile_imp hc
    · exact fun c hc => head?_dropWhile_eq_false hc
    · rw [hbehind.toList_current, hcurrent]
    · exact hbehind.toList_remaining
  case matchSeq_passes =>
    intro tests hpasses
    rw [hremaining] at hpasses ⊢
    obtain ⟨htruth, hbehind⟩ := hview.matchSeq_passes hpasses
    refine ⟨htruth, ?_, ?_⟩
    · rw [hbehind.toList_current, hcurrent]
    · exact hbehind.toList_remaining
  case matchSeq_fails =>
    intro tests hpasses
    exact hview.matchSeq_fails (hremaining ▸ hpasses)

theorem alike_places : Session.Alike InStep
    (fun operation places => some (Places.perform line.toList operation places))
    (fun operation (cursor : Cursor line) => some (cursor.perform operation)) := by
  intro operation places cursor h
  obtain ⟨hanswer, hstep⟩ := perform_inStep h operation
  refine ⟨(cursor.perform operation).1, _, _, ?_, rfl, hstep⟩
  rw [← hanswer]

theorem alike_offsets : Session.Alike (fun (cursor : Cursor line) held => held = cursor.offsets)
    (fun operation cursor => some (cursor.perform operation)) (Offsets.perform? line) := by
  rintro operation cursor held rfl
  exact ⟨_, _, _, rfl, Offsets.perform?_offsets cursor operation, rfl⟩

/-- A list of characters with two indices, a cursor and two bare offsets in bytes answer every
operation of any sequence, and alike, and end at the same place of the line. -/
theorem sessions_agree (text : List Char) (actions : List Action) :
    ∃ answers places session held,
      (Session.opened Places.front).run?
        (fun operation places =>
          some (Places.perform (Lines.dropTerminator text) operation places)) actions =
        some (answers, places) ∧
      (Session.opened (atStart (lineOf text))).run?
        (fun operation cursor => some (cursor.perform operation)) actions =
        some (answers, session) ∧
      (Session.opened Places.front).run? (Offsets.perform? (lineOf text)) actions =
        some (answers, held) ∧
      StandsAt places.cursor held.cursor session.cursor := by
  have hplaces := Session.together_opened (inStep_atStart (lineOf text))
  obtain ⟨answers, places, session, hrun, hcursor, htogether⟩ := hplaces.run? alike_places actions
  have hoffsets : Session.Together (fun cursor held => held = cursor.offsets)
      (Session.opened (atStart (lineOf text))) (Session.opened Places.front) :=
    Session.together_opened rfl
  obtain ⟨others, session', held, hcursor', hheld, hsame⟩ := hoffsets.run? alike_offsets actions
  obtain ⟨rfl, rfl⟩ := Prod.mk.inj (Option.some.inj (hcursor.symm.trans hcursor'))
  rw [toList_lineOf] at hrun
  refine ⟨answers, places, session, held, hrun, hcursor, hheld, ?_⟩
  rw [hsame.cursor]
  exact htogether.cursor.standsAt

example : ((Session.opened Places.front).run? (Offsets.perform? "é€x")
      [.operate .next, .snapshot, .operate .next, .operate .offset, .operate (.matchSeq [(· == 'x')]),
       .operate .current, .restore 0, .operate .offset, .operate .remaining]).map Prod.fst =
    some [.char (some 'é'), .number 0, .char (some '€'), .number 5, .truth true,
      .text ['é', '€', 'x'], .done, .number 2, .text ['€', 'x']] := by
  decide +kernel

end Cursor

end BoardHighlight
