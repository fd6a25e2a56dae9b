import BoardHighlight.Lexer
import BoardHighlight.Text.Lines

/-!
# Cursors on a line

A cursor walks one line of text, held as UTF-8, and remembers where the lexeme that is being read
starts. Both of its places are positions of the line, so they stand between characters, and the
start is never behind the position. A cursor is a value: keeping one is taking a snapshot, and
going on with a kept one is going back to it.
-/

namespace BoardHighlight
set_option autoImplicit false

structure Cursor (line : String) where
  start : line.Pos
  position : line.Pos
  start_le : start ≤ position

namespace Cursor

variable {line : String}

/-- A cursor in front of a line. -/
def atStart (line : String) : Cursor line :=
  ⟨line.startPos, line.startPos, String.Pos.le_refl _⟩

/-- The line that a cursor walks when it is given some text: the text without its terminator. -/
def lineOf (text : List Char) : String := String.ofList (Lines.dropTerminator text)

/-- Offset in bytes of the start of the lexeme. -/
def startOffset (cursor : Cursor line) : Nat := cursor.start.offset.byteIdx

/-- Offset in bytes of the position. -/
def offset (cursor : Cursor line) : Nat := cursor.position.offset.byteIdx

/-- The column at which the lexeme starts: columns count characters from one. -/
def startColumn (cursor : Cursor line) : Nat :=
  (line.extract line.startPos cursor.start).length + 1

/-- The text from the start of the lexeme to the position. -/
def current (cursor : Cursor line) : String := line.extract cursor.start cursor.position

/-- The text from the position to the end of the line. -/
def remaining (cursor : Cursor line) : String := line.extract cursor.position line.endPos

def atEnd (cursor : Cursor line) : Bool := cursor.position == line.endPos

/-- The character at a position; one below 128 is its own byte. -/
def charAt? (position : line.Pos) : Option Char :=
  if h : position = line.endPos then none
  else
    let byte := position.byte h
    if byte < 128 then some (Char.ofUInt8 byte) else some (position.get h)

theorem byte_and_eq_zero {byte : UInt8} (h : byte < 128) : byte &&& 128 = 0 := by
  have hall : ∀ n : Fin 128, UInt8.ofNat n.val &&& 128 = 0 := by decide
  have hbyte := hall ⟨byte.toNat, UInt8.lt_iff_toNat_lt.mp h⟩
  rwa [UInt8.ofNat_toNat] at hbyte

/-- A byte below 128 is the whole of its character. -/
theorem get_eq_of_byte_lt {position : line.Pos} (h : position ≠ line.endPos)
    (hbyte : position.byte h < 128) : position.get h = Char.ofUInt8 (position.byte h) := by
  have hlt : position.offset.byteIdx < line.toByteArray.size := by
    simpa using position.byteIdx_lt_utf8ByteSize h
  have hget : position.byte h = line.toByteArray[position.offset.byteIdx] := by
    simp [String.Pos.byte, String.Slice.Pos.byte, String.Slice.getUTF8Byte, String.getUTF8Byte]
  have hdecode : line.toByteArray.utf8DecodeChar? position.offset.byteIdx =
      some (position.get h) := by
    simp [String.Pos.get, String.Slice.Pos.get, String.decodeChar, ByteArray.utf8DecodeChar]
  have hfirst : ByteArray.utf8DecodeChar?.parseFirstByte
      line.toByteArray[position.offset.byteIdx] = .done := by
    rw [← hget]
    simp [ByteArray.utf8DecodeChar?.parseFirstByte, byte_and_eq_zero hbyte]
  rw [ByteArray.utf8DecodeChar?.eq_1, dif_pos hlt] at hdecode
  split at hdecode <;> simp_all [ByteArray.utf8DecodeChar?.assemble₁]
  rw [← hdecode]
  rfl

theorem charAt?_of_ne {position : line.Pos} (h : position ≠ line.endPos) :
    charAt? position = some (position.get h) := by
  unfold charAt?
  rw [dif_neg h]
  dsimp only
  split
  · rename_i hbyte
    rw [get_eq_of_byte_lt h hbyte]
  · rfl

@[simp] theorem charAt?_end : charAt? line.endPos = none := by simp [charAt?]

def peek? (cursor : Cursor line) : Option Char := charAt? cursor.position

/-- The cursor with its position moved on. -/
def moveTo (cursor : Cursor line) (position : line.Pos) (h : cursor.position ≤ position) :
    Cursor line :=
  ⟨cursor.start, position, String.Pos.le_trans cursor.start_le h⟩

/-- Behind the next character, or at the end. -/
def advance (cursor : Cursor line) : Cursor line :=
  if h : cursor.position = line.endPos then cursor
  else cursor.moveTo (cursor.position.next h) String.Pos.le_next

/-- Takes the next character. -/
def next (cursor : Cursor line) : Option Char × Cursor line := (cursor.peek?, cursor.advance)

/-- Takes the next character if it passes the test. -/
def eat (test : Char → Bool) (cursor : Cursor line) : Bool × Cursor line :=
  match cursor.peek? with
  | some c => if test c then (true, cursor.advance) else (false, cursor)
  | none => (false, cursor)

/-- The end of the run of characters that pass the test. -/
def runEnd (test : Char → Bool) (position : line.Pos) : line.Pos :=
  if h : position = line.endPos then position
  else if test (position.get h) then runEnd test (position.next h)
  else position
termination_by position
decreasing_by exact String.Pos.lt_next

theorem le_runEnd (test : Char → Bool) (position : line.Pos) :
    position ≤ runEnd test position := by
  fun_induction runEnd test position with
  | case1 => exact String.Pos.le_refl _
  | case2 position h _ ih => exact String.Pos.le_trans String.Pos.le_next ih
  | case3 => exact String.Pos.le_refl _

/-- Takes the longest run of characters that pass the test, and tells whether there were any. -/
def eatWhile (test : Char → Bool) (cursor : Cursor line) : Bool × Cursor line :=
  let stop := runEnd test cursor.position
  (stop != cursor.position, cursor.moveTo stop (le_runEnd test cursor.position))

/-- The position behind characters that pass the tests one by one. -/
def seqEnd? (tests : List (Char → Bool)) (position : line.Pos) : Option line.Pos :=
  match tests with
  | [] => some position
  | test :: tests =>
    if h : position = line.endPos then none
    else if test (position.get h) then seqEnd? tests (position.next h)
    else none

theorem le_of_seqEnd? {tests : List (Char → Bool)} {position stop : line.Pos}
    (h : seqEnd? tests position = some stop) : position ≤ stop := by
  induction tests generalizing position with
  | nil => cases h; exact String.Pos.le_refl _
  | cons test tests ih =>
    unfold seqEnd? at h
    split at h
    · cases h
    · split at h
      · exact String.Pos.le_trans String.Pos.le_next (ih h)
      · cases h

/-- Takes a sequence of characters if all of them pass their tests, and nothing otherwise. -/
def matchSeq (tests : List (Char → Bool)) (cursor : Cursor line) : Bool × Cursor line :=
  match h : seqEnd? tests cursor.position with
  | some stop => (true, cursor.moveTo stop (le_of_seqEnd? h))
  | none => (false, cursor)

def skipToEnd (cursor : Cursor line) : Cursor line :=
  cursor.moveTo line.endPos (String.Pos.le_endPos _)

/-- Starts a lexeme at the position. -/
def markStart (cursor : Cursor line) : Cursor line :=
  ⟨cursor.position, cursor.position, String.Pos.le_refl _⟩

/-- Takes `n` characters, or as many as are left. -/
def skip : Nat → Cursor line → Cursor line
  | 0, cursor => cursor
  | n + 1, cursor => skip n cursor.advance

/-- Reads the next token; the cursor then stands behind it and starts at it. -/
def nextToken? (mode : Mode) (cursor : Cursor line) : Option (Token × Mode × Cursor line) :=
  (BoardHighlight.nextToken? true mode cursor.remaining.toList).map fun (token, next) =>
    (token, next, cursor.markStart.skip token.lexeme.length)

/-- Reads tokens up to the end of the line, at most `limit` of them, each with the mode after it
and the cursor behind it. -/
def readings : Nat → Mode → Cursor line → List (Token × Mode × Cursor line)
  | 0, _, _ => []
  | limit + 1, mode, cursor =>
    match cursor.nextToken? mode with
    | none => []
    | some (token, next, behind) => (token, next, behind) :: readings limit next behind

/-- All the readings of a line: no line has more tokens than characters. -/
def readLine (mode : Mode) (line : String) : List (Token × Mode × Cursor line) :=
  readings line.length mode (atStart line)

end Cursor

end BoardHighlight
