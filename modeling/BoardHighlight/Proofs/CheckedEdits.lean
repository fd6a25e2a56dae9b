import BoardHighlight.Proofs.UnnoticedEdits

/-!
# Edits on two lists

An edit is refused before anything is changed: first if its place is not there, then if its text is
more than one line. What is refused leaves no trace in the document or in later answers.

A document may also be held as two lists, its lines and the modes before and behind them, that are
changed one after the other by index. `Columns.perform?` makes an edit on these in single steps. It
has no answer if an index is out of bounds or reaches the limit of indices, and it gives the lists
back as they stand where the edit ends. With an index for every line it always has an answer, and
this is the one of the document.
-/

namespace BoardHighlight
set_option autoImplicit false

namespace Edit

/-- The place of the edit is there; a new line may also stand behind the last one. -/
def InRange (count : Nat) : Edit → Prop
  | .replace i _ => i < count
  | .insert i _ => i ≤ count
  | .remove i => i < count

/-- The edit brings a text of more than one line. -/
def BreaksLine : Edit → Prop
  | .replace _ text => '\n' ∈ text
  | .insert _ text => '\n' ∈ text
  | .remove _ => False

end Edit

/-- Lines, and the modes before each of them and behind the last. -/
structure Columns where
  lines : List (List Char)
  modes : List Mode

namespace Columns

section Accesses
variable {α : Type} {limit i : Nat} {xs : List α}

def next? (limit i : Nat) : Option Nat := if i + 1 < limit then some (i + 1) else none

def setAt? (xs : List α) (i : Nat) (x : α) : Option (List α) :=
  if i < xs.length then some (xs.set i x) else none

def insertAt? (xs : List α) (i : Nat) (x : α) : Option (List α) :=
  if i ≤ xs.length then some (xs.insertIdx i x) else none

def removeAt? (xs : List α) (i : Nat) : Option (List α) :=
  if i < xs.length then some (xs.eraseIdx i) else none

theorem next?_of_lt (h : i + 1 < limit) : next? limit i = some (i + 1) := if_pos h

theorem setAt?_of_lt (h : i < xs.length) (x : α) : setAt? xs i x = some (xs.set i x) := if_pos h

theorem insertAt?_of_le (h : i ≤ xs.length) (x : α) : insertAt? xs i x = some (xs.insertIdx i x) :=
  if_pos h

theorem removeAt?_of_lt (h : i < xs.length) : removeAt? xs i = some (xs.eraseIdx i) := if_pos h

end Accesses

/-- Lexes `left` lines from line `i` on, unless one of them ends in the mode that is kept behind it;
`count` lines were lexed before. -/
def relexFrom? (limit : Nat) : Nat → Nat → Nat → Columns → Option (Nat × Columns)
  | 0, _, count, columns => some (count, columns)
  | left + 1, i, count, columns => do
    let mode ← columns.modes[i]?
    let text ← columns.lines[i]?
    let count ← next? limit count
    let behind ← next? limit i
    let kept ← columns.modes[behind]?
    if kept = Line.endMode mode text then some (count, columns)
    else
      let modes ← setAt? columns.modes behind (Line.endMode mode text)
      relexFrom? limit left behind count { columns with modes }

def relex? (limit i : Nat) (columns : Columns) : Option (Except EditError Nat × Columns) := do
  let (count, columns) ← relexFrom? limit (columns.lines.length - i) i 0 columns
  some (.ok count, columns)

/-- Makes an edit, each list by itself. -/
def perform? (limit : Nat) (columns : Columns) : Edit → Option (Except EditError Nat × Columns)
  | .replace i text =>
    if columns.lines.length ≤ i then some (.error (.outOfRange i columns.lines.length), columns)
    else if '\n' ∈ text then some (.error (.lineBreak i), columns)
    else do
      let lines ← setAt? columns.lines i text
      relex? limit i { columns with lines }
  | .insert i text =>
    if columns.lines.length < i then some (.error (.outOfRange i columns.lines.length), columns)
    else if '\n' ∈ text then some (.error (.lineBreak i), columns)
    else do
      let lines ← insertAt? columns.lines i text
      let behind ← next? limit i
      let mode ← columns.modes[i]?
      let modes ← insertAt? columns.modes behind mode
      relex? limit i ⟨lines, modes⟩
  | .remove i =>
    if columns.lines.length ≤ i then some (.error (.outOfRange i columns.lines.length), columns)
    else do
      let lines ← removeAt? columns.lines i
      let behind ← next? limit i
      let modes ← removeAt? columns.modes behind
      relex? limit i ⟨lines, modes⟩

/-- Makes edits one after the other, and answers each of them. -/
def performAll? (limit : Nat) (columns : Columns) :
    List Edit → Option (List (Except EditError Nat) × Columns)
  | [] => some ([], columns)
  | edit :: edits => do
    let (answer, columns) ← columns.perform? limit edit
    let (answers, columns) ← columns.performAll? limit edits
    some (answer :: answers, columns)

end Columns

namespace Document

def columns (doc : Document) : Columns := ⟨doc.lines, doc.modes⟩

/-- What a history of edits answers, edit by edit. -/
def answers (doc : Document) : List Edit → List (Except EditError Nat)
  | [] => []
  | edit :: edits => (doc.edit edit).map Prod.fst :: (doc.after edit).answers edits

end Document

namespace Columns
open Document

theorem lines_getElem?_append (front : List Entry) (entry : Entry) (rest : List Entry) :
    (Document.mk (front ++ entry :: rest)).lines[front.length]? = some entry.text := by
  simp [Document.lines]

theorem lastMode_concat (mode : Mode) (front : List Entry) (entry : Entry) :
    lastMode mode (front ++ [entry]) = entry.after := by
  simp [lastMode]

/-- A mode that is replaced in its list is the one behind its line. -/
theorem columns_set (front : List Entry) (entry : Entry) (rest : List Entry) (after : Mode) :
    Columns.mk (Document.mk (front ++ entry :: rest)).lines
        ((Document.mk (front ++ entry :: rest)).modes.set (front.length + 1) after) =
      (Document.mk ((front ++ [⟨entry.text, after⟩]) ++ rest)).columns := by
  have hlength := modes_mk_length front
  rw [columns, modes_append, List.set_append_right _ _ (by omega), hlength, Nat.sub_self,
    List.append_assoc, modes_append]
  simp [Document.lines]

/-- The loop does to the two lists what lexing again does to the entries. -/
theorem relexFrom?_append {limit : Nat} (front rest : List Entry) (count : Nat)
    (hindex : front.length + rest.length < limit) (hcount : count + rest.length < limit) :
    relexFrom? limit rest.length front.length count (Document.mk (front ++ rest)).columns =
      some (count + (relex (lastMode .normal front) rest).1,
        (Document.mk (front ++ (relex (lastMode .normal front) rest).2)).columns) := by
  induction rest generalizing front count with
  | nil => rfl
  | cons entry rest ih =>
    rw [List.length_cons] at hindex hcount
    have hmode : (Document.mk (front ++ entry :: rest)).modes[front.length]? =
      some (lastMode .normal front) := modeBefore?_append front (entry :: rest)
    have hkept : (Document.mk (front ++ entry :: rest)).modes[front.length + 1]? = some entry.after :=
      modes_getElem?_behind front (entry :: rest) 0
    have hset : front.length + 1 < (Document.mk (front ++ entry :: rest)).modes.length := by
      rw [modes_mk_length, List.length_append, List.length_cons]
      omega
    rw [List.length_cons, relexFrom?, columns, hmode, lines_getElem?_append,
      next?_of_lt (by omega), next?_of_lt (by omega)]
    simp only [Option.bind_eq_bind, Option.bind_some]
    rw [hkept, Option.bind_some, relex]
    dsimp only
    generalize Line.endMode (lastMode .normal front) entry.text = after
    by_cases hagree : entry.after = after
    · rw [if_pos hagree, if_pos hagree.symm]
      rfl
    · -- the entries behind this one are lexed with it among those in front
      have hrest := ih (front ++ [⟨entry.text, after⟩]) (count + 1)
        (by rw [List.length_append, List.length_singleton]; omega) (by omega)
      rw [List.length_append, List.length_singleton, lastMode_concat] at hrest
      rw [if_neg hagree, if_neg (Ne.symm hagree), setAt?_of_lt hset, Option.bind_some, columns_set,
        hrest, Nat.add_assoc, Nat.add_comm 1, List.append_assoc]
      rfl

theorem relex?_append {limit : Nat} (front rest : List Entry)
    (hindex : front.length + rest.length < limit) :
    relex? limit front.length (Document.mk (front ++ rest)).columns =
      some (.ok (relexFrom front.length (front ++ rest)).1,
        (relexFrom front.length (front ++ rest)).2.columns) := by
  have hleft : (Document.mk (front ++ rest)).lines.length - front.length = rest.length := by
    rw [Document.lines, List.length_map, List.length_append, Nat.add_sub_cancel_left]
  have hloop := relexFrom?_append front rest 0 hindex (by omega)
  rw [relex?, columns, hleft]
  rw [columns] at hloop
  rw [hloop, relexFrom_append, Nat.zero_add]
  rfl

/-- An edit that is not refused changes the lists as it changes lines and kept modes, and lexes again
from its line on. -/
theorem perform?_of_inRange {limit : Nat} {columns : Columns} {edit : Edit}
    (hmodes : columns.modes.length = columns.lines.length + 1)
    (hlimit : columns.lines.length + 1 < limit) (hrange : edit.InRange columns.lines.length)
    (hbreak : ¬edit.BreaksLine) :
    columns.perform? limit edit =
      relex? limit edit.line ⟨edit.applyTo columns.lines, edit.shift columns.modes⟩ := by
  obtain ⟨lines, modes⟩ := columns
  dsimp only at hmodes hlimit hrange
  cases edit with
  | replace i text =>
    have hi : i < lines.length := hrange
    have htext : '\n' ∉ text := hbreak
    rw [perform?, if_neg (Nat.not_le_of_lt hi), if_neg htext, setAt?_of_lt hi]
    rfl
  | insert i text =>
    have hi : i ≤ lines.length := hrange
    have htext : '\n' ∉ text := hbreak
    have hlt : i < modes.length := by omega
    have hshift : modes.insertIdx (i + 1) modes[i] = modes.take (i + 1) ++ modes.drop i := by
      have hinsert := insertIdx_length_append (modes.take (i + 1)) (modes.drop (i + 1)) modes[i]
      rwa [List.take_append_drop, List.length_take_of_le hlt, ← List.drop_eq_getElem_cons hlt]
        at hinsert
    rw [perform?, if_neg (Nat.not_lt_of_le hi), if_neg htext, insertAt?_of_le hi,
      next?_of_lt (by omega), List.getElem?_eq_getElem hlt]
    simp only [Option.bind_eq_bind, Option.bind_some]
    rw [insertAt?_of_le hlt, Option.bind_some, hshift]
    rfl
  | remove i =>
    have hi : i < lines.length := hrange
    rw [perform?, if_neg (Nat.not_le_of_lt hi), removeAt?_of_lt hi, next?_of_lt (by omega)]
    simp only [Option.bind_eq_bind, Option.bind_some]
    rw [removeAt?_of_lt (by omega)]
    rfl

section Refused
variable {limit : Nat} {columns : Columns} {edit : Edit}

theorem perform?_of_not_inRange (hrange : ¬edit.InRange columns.lines.length) :
    columns.perform? limit edit =
      some (.error (.outOfRange edit.line columns.lines.length), columns) := by
  cases edit with
  | replace i text => exact if_pos (Nat.le_of_not_lt hrange)
  | insert i text => exact if_pos (Nat.lt_of_not_le hrange)
  | remove i => exact if_pos (Nat.le_of_not_lt hrange)

theorem perform?_of_breaksLine (hrange : edit.InRange columns.lines.length)
    (hbreak : edit.BreaksLine) :
    columns.perform? limit edit = some (.error (.lineBreak edit.line), columns) := by
  cases edit with
  | replace i text =>
    have htext : '\n' ∈ text := hbreak
    rw [perform?, if_neg (Nat.not_le_of_lt hrange), if_pos htext]
    rfl
  | insert i text =>
    have htext : '\n' ∈ text := hbreak
    rw [perform?, if_neg (Nat.not_lt_of_le hrange), if_pos htext]
    rfl
  | remove i => exact absurd hbreak id

end Refused

end Columns

namespace Document

section Outcomes
variable {doc : Document} {edit : Edit}

theorem edit_of_not_inRange (hrange : ¬edit.InRange doc.lineCount) :
    doc.edit edit = .error (.outOfRange edit.line doc.lineCount) := by
  cases edit with
  | replace i text => exact if_pos (Nat.le_of_not_lt hrange)
  | insert i text =>
    have hmode : doc.modeBefore? i = none := by
      rw [← Option.not_isSome_iff_eq_none, modeBefore?_isSome_iff]
      exact hrange
    simp only [Document.edit, insert, hmode, Edit.line]
  | remove i => exact if_pos (Nat.le_of_not_lt hrange)

theorem edit_of_breaksLine (hrange : edit.InRange doc.lineCount) (hbreak : edit.BreaksLine) :
    doc.edit edit = .error (.lineBreak edit.line) := by
  cases edit with
  | replace i text =>
    have htext : '\n' ∈ text := hbreak
    rw [Document.edit, replace, if_neg (Nat.not_le_of_lt hrange), if_pos htext]
    rfl
  | insert i text =>
    have htext : '\n' ∈ text := hbreak
    obtain ⟨mode, hmode⟩ := Option.isSome_iff_exists.mp (modeBefore?_isSome_iff.mpr hrange)
    simp only [Document.edit, insert, hmode, if_pos htext, Edit.line]
  | remove i => exact absurd hbreak id

theorem exists_edit (hrange : edit.InRange doc.lineCount) (hbreak : ¬edit.BreaksLine) :
    ∃ count changed, doc.edit edit = .ok (count, changed) := by
  cases edit with
  | replace i text => exact exists_replace hrange hbreak
  | insert i text => exact exists_insert hrange hbreak
  | remove i =>
    rw [Document.edit, remove, if_neg (Nat.not_le_of_lt hrange)]
    exact ⟨_, _, rfl⟩

theorem edit_trichotomy (doc : Document) (edit : Edit) :
    (¬edit.InRange doc.lineCount ∧ doc.edit edit = .error (.outOfRange edit.line doc.lineCount)) ∨
    (edit.InRange doc.lineCount ∧ edit.BreaksLine ∧ doc.edit edit = .error (.lineBreak edit.line)) ∨
    (edit.InRange doc.lineCount ∧ ¬edit.BreaksLine ∧
      ∃ count changed, doc.edit edit = .ok (count, changed)) := by
  by_cases hrange : edit.InRange doc.lineCount
  · by_cases hbreak : edit.BreaksLine
    · exact .inr (.inl ⟨hrange, hbreak, edit_of_breaksLine hrange hbreak⟩)
    · exact .inr (.inr ⟨hrange, hbreak, exists_edit hrange hbreak⟩)
  · exact .inl ⟨hrange, edit_of_not_inRange hrange⟩

theorem outcome_iff (doc : Document) (edit : Edit) :
    (doc.edit edit = .error (.outOfRange edit.line doc.lineCount) ↔ ¬edit.InRange doc.lineCount) ∧
    (doc.edit edit = .error (.lineBreak edit.line) ↔
      edit.InRange doc.lineCount ∧ edit.BreaksLine) ∧
    ((∃ count changed, doc.edit edit = .ok (count, changed)) ↔
      edit.InRange doc.lineCount ∧ ¬edit.BreaksLine) := by
  rcases edit_trichotomy doc edit with
    ⟨hrange, hedit⟩ | ⟨hrange, hbreak, hedit⟩ | ⟨hrange, hbreak, count, changed, hedit⟩
  · simp [hedit, hrange]
  · simp [hedit, hrange, hbreak]
  · simp [hedit, hrange, hbreak]

end Outcomes

section OnColumns
variable {doc changed : Document} {edit : Edit} {limit count : Nat} {error : EditError}

theorem columns_lines_length (doc : Document) : doc.columns.lines.length = doc.lineCount :=
  (lineCount_eq doc).symm

/-- A refusal comes before any access, so no limit of indices matters to it. -/
theorem perform?_of_error (h : doc.edit edit = .error error) :
    doc.columns.perform? limit edit = some (.error error, doc.columns) := by
  have hlength := columns_lines_length doc
  rcases edit_trichotomy doc edit with
    ⟨hrange, hedit⟩ | ⟨hrange, hbreak, hedit⟩ | ⟨-, -, count, changed, hedit⟩
  · obtain rfl := Except.error.inj (h.symm.trans hedit)
    rw [Columns.perform?_of_not_inRange (hlength ▸ hrange), hlength]
  · obtain rfl := Except.error.inj (h.symm.trans hedit)
    exact Columns.perform?_of_breaksLine (hlength ▸ hrange) hbreak
  · rw [hedit] at h
    cases h

theorem Edited.length_le {mode : Mode} {old new : List Entry} (h : Edited mode edit old new) :
    new.length ≤ old.length + 1 := by
  cases h with
  | replace i text entry rest => exact Nat.le_succ _
  | insert i text rest => exact Nat.le_refl _
  | remove i entry rest => exact Nat.le_add_right _ 2

theorem perform?_of_ok (h : doc.edit edit = .ok (count, changed)) (hlimit : doc.lineCount + 1 < limit) :
    doc.columns.perform? limit edit = some (.ok count, changed.columns) := by
  have hlength := columns_lines_length doc
  obtain ⟨hrange, hbreak⟩ := (outcome_iff doc edit).2.2.mp ⟨count, changed, h⟩
  obtain ⟨front, old, new, hentries, hfront, hedited, hrelex⟩ := edit_cases h
  obtain rfl : doc = ⟨front ++ old⟩ := by rw [← hentries]
  have hcolumns : Columns.mk (edit.applyTo (Document.mk (front ++ old)).lines)
      (edit.shift (Document.mk (front ++ old)).modes) = (Document.mk (front ++ new)).columns := by
    rw [hedited.lines_eq hfront, hedited.modes_eq hfront, columns]
  have hroom : front.length + new.length < limit := by
    have hnew := hedited.length_le
    rw [lineCount, List.length_append] at hlimit
    omega
  rw [← hfront] at hrelex
  rw [Columns.perform?_of_inRange (by rw [hlength]; exact modes_length _)
    (hlength.symm ▸ hlimit) (hlength.symm ▸ hrange) hbreak, ← hfront, columns, hcolumns,
    Columns.relex?_append front new hroom, ← hrelex]

/-- The two lists of a document give the answer of the document, and end as its lists. -/
theorem perform?_columns (doc : Document) (edit : Edit) (hlimit : doc.lineCount + 1 < limit) :
    doc.columns.perform? limit edit =
      some ((doc.edit edit).map Prod.fst, (doc.after edit).columns) := by
  rw [after]
  cases h : doc.edit edit with
  | error error => exact perform?_of_error h
  | ok made => exact perform?_of_ok h hlimit

/-- So do they for a history, if there is an index for every line on the way. -/
theorem performAll?_columns (doc : Document) (edits : List Edit)
    (hlimit : ∀ k, k ≤ edits.length → (doc.afterAll (edits.take k)).lineCount + 1 < limit) :
    doc.columns.performAll? limit edits =
      some (doc.answers edits, (doc.afterAll edits).columns) := by
  induction edits generalizing doc with
  | nil => rfl
  | cons edit edits ih =>
    have hrest := ih (doc.after edit) fun k hk => hlimit (k + 1) (Nat.succ_le_succ hk)
    rw [Columns.performAll?, perform?_columns doc edit (hlimit 0 (Nat.zero_le _))]
    simp only [Option.bind_eq_bind, Option.bind_some]
    rw [hrest]
    rfl

end OnColumns

/-- What an edit comes to: it is refused for its place, else refused for its text, else made. -/
structure Resolved (doc : Document) (edit : Edit) : Prop where
  out_of_range_iff : doc.edit edit = .error (.outOfRange edit.line doc.lineCount) ↔
    ¬edit.InRange doc.lineCount
  line_break_iff : doc.edit edit = .error (.lineBreak edit.line) ↔
    edit.InRange doc.lineCount ∧ edit.BreaksLine
  made_iff : (∃ count changed, doc.edit edit = .ok (count, changed)) ↔
    edit.InRange doc.lineCount ∧ ¬edit.BreaksLine
  refused : ∀ error, doc.edit edit = .error error → doc.after edit = doc ∧
    (∀ limit, doc.columns.perform? limit edit = some (.error error, doc.columns)) ∧
    ∀ edits, doc.answers (edit :: edits) = .error error :: doc.answers edits ∧
      doc.afterAll (edit :: edits) = doc.afterAll edits
  made : ∀ count changed, doc.edit edit = .ok (count, changed) →
    changed.lines = edit.applyTo doc.lines ∧ ∀ limit, doc.lineCount + 1 < limit →
      doc.columns.perform? limit edit = some (.ok count, changed.columns)

/-- Edits are refused when they should be and leave nothing behind then, and a history of them never
leaves the bounds of the lists or the limit of indices. -/
theorem resolved_and_performed (doc : Document) :
    (∀ edit, Resolved doc edit) ∧ ∀ limit edits,
      (∀ k, k ≤ edits.length → (doc.afterAll (edits.take k)).lineCount + 1 < limit) →
      doc.columns.performAll? limit edits =
        some (doc.answers edits, (doc.afterAll edits).columns) := by
  refine ⟨fun edit => ?_, fun limit edits => performAll?_columns doc edits⟩
  obtain ⟨hrange, hbreak, hmade⟩ := outcome_iff doc edit
  refine ⟨hrange, hbreak, hmade, ?_, ?_⟩
  · intro error h
    have hafter : doc.after edit = doc := by rw [after, h]
    refine ⟨hafter, fun limit => perform?_of_error h, fun edits => ⟨?_, ?_⟩⟩
    · rw [answers, hafter, h]
      rfl
    · rw [afterAll, List.foldl_cons, hafter]
      rfl
  · intro count changed h
    exact ⟨lines_of_edit h, fun limit => perform?_of_ok h⟩

/-- A far place and a text of two lines are refused; a new line closes the comment above it, and a
comment that is opened above both keeps them open. -/
theorem resolved_and_performed_far :
    let doc := ofText "a\n\x7b- b".toList
    let far : Edit := .insert (UInt64.size - 1) "c".toList
    let edits : List Edit := [.replace 1 "c\nd".toList, .insert 2 "-\x7d".toList,
      .replace 0 "\x7b-".toList, .remove 2]
    doc.edit far = .error (.outOfRange (UInt64.size - 1) 2) ∧
      doc.answers (far :: edits) = .error (.outOfRange (UInt64.size - 1) 2) :: doc.answers edits ∧
      (doc.answers edits).map Except.toOption = [none, some 1, some 3, some 0] ∧
      doc.columns.performAll? UInt64.size edits =
        some (doc.answers edits, (doc.afterAll edits).columns) := by
  intro doc far edits
  obtain ⟨hresolved, hperform⟩ := resolved_and_performed doc
  have hfar : doc.edit far = .error (.outOfRange (UInt64.size - 1) 2) := by
    have hrange : ¬UInt64.size - 1 ≤ doc.lineCount := by decide +kernel
    exact (hresolved far).out_of_range_iff.mpr hrange
  obtain ⟨-, -, hlater⟩ := (hresolved far).refused _ hfar
  refine ⟨hfar, (hlater edits).1, ?_, ?_⟩
  · decide +kernel
  · apply hperform
    decide +kernel

end Document

end BoardHighlight
