import BoardHighlight.Cursor

/-!
# Cursors as split lines

A cursor cuts its line in three: what stands in front of the lexeme, the lexeme as far as it has
been read, and what is left. Each operation on a cursor moves characters from one part to the next,
so reading on a cursor is reading on the list of the characters that are left.
-/

namespace BoardHighlight
set_option autoImplicit false

namespace Cursor
open String (ofList)
variable {line : String}

@[simp] theorem atStart_start (line : String) : (atStart line).start = line.startPos := rfl
@[simp] theorem atStart_position (line : String) : (atStart line).position = line.startPos := rfl
@[simp] theorem markStart_start (cursor : Cursor line) : cursor.markStart.start = cursor.position := rfl
@[simp] theorem markStart_position (cursor : Cursor line) :
    cursor.markStart.position = cursor.position := rfl
@[simp] theorem moveTo_start (cursor : Cursor line) (position : line.Pos)
    (h : cursor.position ≤ position) : (cursor.moveTo position h).start = cursor.start := rfl
@[simp] theorem moveTo_position (cursor : Cursor line) (position : line.Pos)
    (h : cursor.position ≤ position) : (cursor.moveTo position h).position = position := rfl
@[simp] theorem skip_zero (cursor : Cursor line) : cursor.skip 0 = cursor := rfl
@[simp] theorem skip_succ (n : Nat) (cursor : Cursor line) :
    cursor.skip (n + 1) = cursor.advance.skip n := rfl

theorem toList_lineOf (text : List Char) : (lineOf text).toList = Lines.dropTerminator text :=
  String.toList_ofList

/-- The three parts of the line at a cursor. -/
structure View (cursor : Cursor line) (before current rest : List Char) : Prop where
  start : cursor.start.Splits (ofList before) (ofList (current ++ rest))
  position : cursor.position.Splits (ofList (before ++ current)) (ofList rest)

theorem view_atStart (line : String) : View (atStart line) [] [] line.toList where
  start := by simp
  position := by simp

namespace View
variable {cursor : Cursor line} {before current rest : List Char}

theorem current_eq (h : View cursor before current rest) : cursor.current = ofList current := by
  have hstart := h.start
  have hposition := h.position
  rw [String.ofList_append] at hstart hposition
  obtain ⟨hle, hslice⟩ := String.copy_slice_eq_iff_splits.mpr ⟨_, _, hstart, hposition⟩
  rw [Cursor.current, String.extract_eq_copy_slice _ _ hle, hslice]

theorem remaining_eq (h : View cursor before current rest) : cursor.remaining = ofList rest := by
  have hposition : cursor.position.Splits (ofList (before ++ current)) (ofList rest ++ "") := by
    simpa using h.position
  have hend : line.endPos.Splits (ofList (before ++ current) ++ ofList rest) "" := by
    rw [← h.position.eq_append]
    exact String.splits_endPos line
  obtain ⟨hle, hslice⟩ := String.copy_slice_eq_iff_splits.mpr ⟨_, _, hposition, hend⟩
  rw [Cursor.remaining, String.extract_eq_copy_slice _ _ hle, hslice]

theorem position_eq_endPos_iff (h : View cursor before current rest) :
    cursor.position = line.endPos ↔ rest = [] := by
  rw [h.position.eq_endPos_iff, String.ofList_eq_empty_iff]

theorem atEnd_iff (h : View cursor before current rest) : cursor.atEnd = true ↔ rest = [] := by
  rw [Cursor.atEnd, beq_iff_eq, h.position_eq_endPos_iff]

theorem markStart (h : View cursor before current rest) :
    View cursor.markStart (before ++ current) [] rest where
  start := h.position
  position := by simpa using h.position

theorem advance {c : Char} (h : View cursor before current (c :: rest)) :
    View cursor.advance before (current ++ [c]) rest := by
  have hne : cursor.position ≠ line.endPos := by
    rw [Ne, h.position_eq_endPos_iff]
    exact List.cons_ne_nil c rest
  have hposition : cursor.position.Splits (ofList (before ++ current))
      (String.singleton c ++ ofList rest) := by
    simpa using h.position
  have hcurrent : ofList (before ++ (current ++ [c])) =
      ofList (before ++ current) ++ String.singleton c := by
    rw [← List.append_assoc, String.ofList_append, String.singleton_eq_ofList]
  rw [Cursor.advance, dif_neg hne]
  constructor
  · simpa using h.start
  · rw [moveTo_position, hcurrent]
    exact hposition.next

theorem skip {taken : List Char} (h : View cursor before current (taken ++ rest)) :
    View (cursor.skip taken.length) before (current ++ taken) rest := by
  induction taken generalizing cursor current with
  | nil => simpa using h
  | cons c taken ih => simpa using ih h.advance

/-- A request reads on from the characters that are left, and starts its lexeme there. -/
theorem nextToken? (h : View cursor before current rest) {mode next : Mode} {token : Token}
    {behind : Cursor line} (hnext : cursor.nextToken? mode = some (token, next, behind)) :
    BoardHighlight.nextToken? true mode rest = some (token, next) ∧
      View behind (before ++ current) token.lexeme (rest.drop token.lexeme.length) := by
  rw [Cursor.nextToken?, h.remaining_eq, String.toList_ofList, Option.map_eq_some_iff] at hnext
  obtain ⟨⟨read, after⟩, hread, hbehind⟩ := hnext
  cases hbehind
  refine ⟨hread, ?_⟩
  have hsplit : rest = token.lexeme ++ rest.drop token.lexeme.length := by
    conv => lhs; rw [← List.take_append_drop token.lexeme.length rest, take_lexeme_length hread]
  exact View.skip (hsplit ▸ h.markStart)

end View

end Cursor

end BoardHighlight
