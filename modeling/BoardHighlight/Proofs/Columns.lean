import Mathlib
import BoardHighlight.Proofs.ProblemOrder
import BoardHighlight.Proofs.Progress

/-!
# Columns of a line

A column is counted in two ways: over the lexemes of the tokens before it, and over the part of the
line in front of a byte offset of the cursor. The parts of the line at the cursor tie them together.
In front of the lexeme that a call has read stand the lexemes of the calls before it and nothing
else, so both count the same characters, and the offsets of the cursor are their sizes as UTF-8.
-/

namespace BoardHighlight
set_option autoImplicit false

namespace Token

/-- How many bytes the lexeme takes as UTF-8. -/
def byteSize (token : Token) : Nat := (String.ofList token.lexeme).utf8ByteSize

theorem utf8ByteSize_text (tokens : List Token) :
    (String.ofList (text tokens)).utf8ByteSize = (tokens.map byteSize).sum := by
  induction tokens with
  | nil => rfl
  | cons token rest ih =>
    rw [text_cons, String.ofList_append, String.utf8ByteSize_append, ih, List.map_cons,
      List.sum_cons, byteSize]

theorem getElem?_withColumns (tokens : List Token) (k : Nat) :
    (withColumns tokens)[k]? =
      tokens[k]?.map fun token => ((text (tokens.take k)).length + 1, token) := by
  rw [withColumns, withColumnsFrom_eq, List.getElem?_map, List.getElem?_zipIdx, Option.map_map,
    Nat.zero_add]
  rfl

end Token

namespace Cursor
open String (ofList)
variable {line : String}

namespace View
variable {cursor : Cursor line} {before current rest : List Char}

theorem toList_eq (h : View cursor before current rest) :
    line.toList = before ++ current ++ rest := by
  conv => lhs; rw [h.position.eq_append]
  rw [← String.ofList_append, String.toList_ofList]

theorem startOffset_eq (h : View cursor before current rest) :
    cursor.startOffset = (ofList before).utf8ByteSize := by
  rw [startOffset, h.start.offset_eq_rawEndPos, String.byteIdx_rawEndPos]

theorem offset_eq (h : View cursor before current rest) :
    cursor.offset = cursor.startOffset + (ofList current).utf8ByteSize := by
  rw [h.startOffset_eq, offset, h.position.offset_eq_rawEndPos, String.byteIdx_rawEndPos,
    String.ofList_append, String.utf8ByteSize_append]

/-- Cutting the line at the byte offset of the start leaves the characters in front of it. -/
theorem startColumn_eq (h : View cursor before current rest) :
    cursor.startColumn = before.length + 1 := by
  have hfirst : line.startPos.Splits "" (ofList before ++ ofList (current ++ rest)) := by
    rw [← h.start.eq_append]
    exact String.splits_startPos line
  have hstart : cursor.start.Splits ("" ++ ofList before) (ofList (current ++ rest)) := by
    simpa using h.start
  obtain ⟨hle, hslice⟩ := String.copy_slice_eq_iff_splits.mpr ⟨_, _, hfirst, hstart⟩
  rw [startColumn, String.extract_eq_copy_slice _ _ hle, hslice, String.length_ofList]

/-- Behind a call, the lexemes of the calls before it have gone to the front. -/
theorem behind_call {stop behind : Cursor line} {mode next last : Mode} {token : Token}
    {read : List (Token × Mode × Cursor line)} {k : Nat} (h : View cursor before current rest)
    (hcalls : Calls mode cursor read last stop) (hk : read[k]? = some (token, next, behind)) :
    ∃ after, View behind (before ++ current ++ Token.text ((read.map (·.1)).take k))
      token.lexeme after := by
  -- the parts of the line are free, as every call moves the lexeme before it to the front
  induction hcalls generalizing before current rest k with
  | done => cases hk
  | next hnext _ ih =>
    obtain ⟨-, hbehind⟩ := h.nextToken? hnext
    cases k with
    | zero =>
      cases hk
      exact ⟨_, by simpa using hbehind⟩
    | succ k =>
      obtain ⟨after, hafter⟩ := ih hbehind hk
      refine ⟨after, ?_⟩
      rwa [List.map_cons, List.take_succ_cons, Token.text_cons, ← List.append_assoc]

end View

/-- Where the cursor stands behind the call that has read a token, when the tokens `earlier` have
been read before it. -/
structure StandsBehind (earlier : List Token) (token : Token) (behind : Cursor line) : Prop where
  startOffset : behind.startOffset = (earlier.map Token.byteSize).sum
  offset : behind.offset = behind.startOffset + token.byteSize
  current : behind.current.toList = token.lexeme
  found : ∃ before after, line.toList = before ++ token.lexeme ++ after ∧
    behind.startColumn = before.length + 1

theorem View.standsBehind {behind : Cursor line} {earlier : List Token} {token : Token}
    {after : List Char} (h : View behind (Token.text earlier) token.lexeme after) :
    StandsBehind earlier token behind where
  startOffset := h.startOffset_eq.trans (Token.utf8ByteSize_text earlier)
  offset := h.offset_eq
  current := by rw [h.current_eq, String.toList_ofList]
  found := ⟨Token.text earlier, after, h.toList_eq, h.startColumn_eq⟩

theorem map_fst_readLine (start : Mode) (text : List Char) :
    (readLine start (lineOf text)).map (·.1) = Line.tokens start text := by
  rw [Line.tokens, ← (readsWhole_readLine start text).reads, List.map_map]
  rfl

theorem view_of_getElem?_readLine {start next : Mode} {text : List Char} {token : Token}
    {behind : Cursor (lineOf text)} {k : Nat}
    (hk : (readLine start (lineOf text))[k]? = some (token, next, behind)) :
    ∃ after, View behind (Token.text ((Line.tokens start text).take k)) token.lexeme after := by
  obtain ⟨stop, hcalls, -⟩ := (readsWhole_readLine start text).finishes
  have hview := (view_atStart (lineOf text)).behind_call hcalls hk
  rwa [map_fst_readLine] at hview

/-- The columns that the tokens of a line get from their lexemes are those that the cursor counts
call by call, in any mode and for any text. Behind each call the cursor stands where its token
is. -/
theorem columns_of_readLine (start : Mode) (text : List Char) :
    (readLine start (lineOf text)).map (fun (token, _, behind) => (behind.startColumn, token)) =
      Token.withColumns (Line.tokens start text) ∧
    ∀ k token next behind, (readLine start (lineOf text))[k]? = some (token, next, behind) →
      StandsBehind ((Line.tokens start text).take k) token behind := by
  constructor
  · apply List.ext_getElem?
    intro k
    rw [Token.getElem?_withColumns, List.getElem?_map]
    conv => rhs; arg 2; rw [← map_fst_readLine, List.getElem?_map]
    rw [Option.map_map]
    cases hk : (readLine start (lineOf text))[k]? with
    | none => rfl
    | some call =>
      obtain ⟨after, hafter⟩ := view_of_getElem?_readLine hk
      simp [hafter.startColumn_eq]
  · intro k token next behind hk
    obtain ⟨after, hafter⟩ := view_of_getElem?_readLine hk
    exact hafter.standsBehind

/-- Characters of two and three bytes on both sides of a start. -/
theorem columns_of_readLine_wide :
    let text := "é = \"λ€\"\r\n".toList
    let token : Token := ⟨.string, "\"λ€\"".toList⟩
    ∃ next behind, (readLine .normal (lineOf text))[4]? = some (token, next, behind) ∧
      behind.startColumn = 5 ∧ behind.startOffset = 5 ∧ behind.offset = 12 ∧
      StandsBehind ((Line.tokens .normal text).take 4) token behind := by
  intro text token
  obtain ⟨hcolumns, hstands⟩ := columns_of_readLine .normal text
  have hfourth : (Token.withColumns (Line.tokens .normal text))[4]? = some (5, token) := by
    decide +kernel
  rw [← hcolumns, List.getElem?_map, Option.map_eq_some_iff] at hfourth
  obtain ⟨⟨read, next, behind⟩, hcall, hplace⟩ := hfourth
  obtain ⟨hcolumn, rfl⟩ := Prod.mk.inj hplace
  have hbehind := hstands 4 _ _ _ hcall
  have hbytes : (((Line.tokens .normal text).take 4).map Token.byteSize).sum = 5 := by
    decide +kernel
  have hstart : behind.startOffset = 5 := hbehind.startOffset.trans hbytes
  have hsize : token.byteSize = 7 := by decide +kernel
  refine ⟨next, behind, hcall, hcolumn, hstart, ?_, hbehind⟩
  rw [hbehind.offset, hstart, hsize]

end Cursor

end BoardHighlight
