import BoardHighlight.Document.Edit
import BoardHighlight.Proofs.Requests

/-!
# Lexing again after an edit

The modes that a document keeps are those of its lines lexed from the first one on, whatever edits
led to it. Lexing again may stop early because only one kept mode can be wrong when it starts: the
entries behind the first are coherent with the mode kept for that first one, and where the new mode
agrees with the kept one, so are all the entries that were not lexed.
-/

namespace BoardHighlight
set_option autoImplicit false

def Edit.line : Edit → Nat
  | .replace i _ => i
  | .insert i _ => i
  | .remove i => i

namespace Document

/-- Every kept mode is the one in which its line ends, the first line starting in `mode`. -/
def Coherent (mode : Mode) : List Entry → Prop
  | [] => True
  | entry :: rest => entry.after = Line.endMode mode entry.text ∧ Coherent entry.after rest

/-- Coherent behind the first entry; the mode kept for that one may be any. -/
def CoherentTail : List Entry → Prop
  | [] => True
  | entry :: rest => Coherent entry.after rest

def lastMode (mode : Mode) (entries : List Entry) : Mode :=
  (entries.getLast?.map (·.after)).getD mode

@[simp] theorem lastMode_nil (mode : Mode) : lastMode mode [] = mode := rfl

@[simp] theorem lastMode_cons (mode : Mode) (entry : Entry) (rest : List Entry) :
    lastMode mode (entry :: rest) = lastMode entry.after rest := by
  cases rest with
  | nil => rfl
  | cons next rest => simp [lastMode, List.getLast?_cons]

theorem coherent_iff {mode : Mode} {entries : List Entry} :
    Coherent mode entries ↔ entries = lexEntries mode (entries.map (·.text)) := by
  induction entries generalizing mode with
  | nil => exact iff_of_true trivial rfl
  | cons entry rest ih =>
    obtain ⟨text, after⟩ := entry
    simp only [Coherent, List.map_cons, lexEntries, List.cons.injEq, Entry.mk.injEq, true_and]
    constructor
    · rintro ⟨rfl, hrest⟩
      exact ⟨rfl, ih.mp hrest⟩
    · rintro ⟨rfl, hrest⟩
      exact ⟨rfl, ih.mpr hrest⟩

theorem coherent_append {mode : Mode} {xs ys : List Entry} :
    Coherent mode (xs ++ ys) ↔ Coherent mode xs ∧ Coherent (lastMode mode xs) ys := by
  induction xs generalizing mode with
  | nil => simp [Coherent]
  | cons x xs ih => simp [Coherent, ih, and_assoc]

theorem Coherent.tail {mode : Mode} {entries : List Entry} (h : Coherent mode entries) :
    CoherentTail entries := by
  cases entries with
  | nil => trivial
  | cons entry rest => exact h.2

theorem Coherent.lastMode_eq {mode : Mode} {entries : List Entry} (h : Coherent mode entries) :
    lastMode mode entries = Line.carry mode (entries.map (·.text)) := by
  induction entries generalizing mode with
  | nil => rfl
  | cons entry rest ih =>
    rw [lastMode_cons, List.map_cons, Line.carry_cons, ← h.1]
    exact ih h.2

/-- Lexing again is exact: the entries that it leaves alone are those that it would not change. -/
theorem coherent_relex (mode : Mode) {entries : List Entry} (h : CoherentTail entries) :
    Coherent mode (relex mode entries).2 := by
  induction entries generalizing mode with
  | nil => trivial
  | cons entry rest ih =>
    unfold relex
    dsimp only
    split
    · rename_i hagree
      -- the entries behind this one were coherent with the mode that it keeps
      exact ⟨hagree.symm, h⟩
    · exact ⟨rfl, ih _ (Coherent.tail h)⟩

theorem modeBefore?_append (front back : List Entry) :
    (Document.mk (front ++ back)).modeBefore? front.length = some (lastMode .normal front) := by
  rcases List.eq_nil_or_concat front with rfl | ⟨front, entry, rfl⟩
  · rfl
  · simp [modeBefore?, modes, lastMode]

theorem relexFrom_append (front back : List Entry) :
    relexFrom front.length (front ++ back) =
      ((relex (lastMode .normal front) back).1, ⟨front ++ (relex (lastMode .normal front) back).2⟩) := by
  simp [relexFrom, modeBefore?_append]

/-- What an edit makes of the entries from its line on, before they are lexed again; `mode` is the
mode in which that line starts. -/
inductive Edited (mode : Mode) : Edit → List Entry → List Entry → Prop where
  | replace (i : Nat) (text : List Char) (entry : Entry) (rest : List Entry) :
      Edited mode (.replace i text) (entry :: rest) (⟨text, entry.after⟩ :: rest)
  | insert (i : Nat) (text : List Char) (rest : List Entry) :
      Edited mode (.insert i text) rest (⟨text, mode⟩ :: rest)
  | remove (i : Nat) (entry : Entry) (rest : List Entry) :
      Edited mode (.remove i) (entry :: rest) rest

/-- An edit disturbs at most the mode kept for the first of those entries. -/
theorem Edited.coherentTail {mode : Mode} {edit : Edit} {old new : List Entry}
    (h : Edited mode edit old new) (hold : Coherent mode old) : CoherentTail new := by
  cases h with
  | replace i text entry rest => exact hold.2
  | insert i text rest => exact hold
  | remove i entry rest => exact Coherent.tail hold.2

/-- An edit that is made leaves the entries above its line, and lexes again from there. -/
theorem edit_cases {doc changed : Document} {edit : Edit} {count : Nat}
    (h : doc.edit edit = .ok (count, changed)) :
    ∃ front old new, doc.entries = front ++ old ∧ front.length = edit.line ∧
      Edited (lastMode .normal front) edit old new ∧
      (count, changed) = relexFrom edit.line (front ++ new) := by
  obtain ⟨entries⟩ := doc
  cases edit with
  | replace i text =>
    simp only [Document.edit, Document.replace] at h
    split at h
    · cases h
    · rename_i hi
      split at h
      · cases h
      · obtain ⟨front, entry, rest, rfl, hlength, hmodify⟩ :=
          List.exists_of_modify (fun entry : Entry => { entry with text }) (Nat.lt_of_not_le hi)
        rw [hmodify] at h
        cases h
        exact ⟨front, entry :: rest, _, rfl, hlength, .replace i text entry rest, rfl⟩
  | insert i text =>
    simp only [Document.edit, Document.insert] at h
    split at h
    · cases h
    · rename_i mode hmode
      have hi : i ≤ entries.length := modeBefore?_isSome_iff.mp (by rw [hmode]; rfl)
      split at h
      · cases h
      · obtain ⟨front, back, rfl, rfl, hinsert⟩ :=
          List.exists_of_modifyTailIdx (List.cons (Entry.mk text mode)) hi
        rw [modeBefore?_append, Option.some.injEq] at hmode
        subst hmode
        rw [List.insertIdx, hinsert] at h
        cases h
        exact ⟨front, back, _, rfl, rfl, .insert _ text back, rfl⟩
  | remove i =>
    simp only [Document.edit, Document.remove] at h
    split at h
    · cases h
    · rename_i hi
      have hlt : i < entries.length := Nat.lt_of_not_le hi
      obtain ⟨front, back, rfl, rfl, herase⟩ :=
        List.exists_of_modifyTailIdx List.tail (Nat.le_of_lt hlt)
      rw [List.eraseIdx_eq_modifyTailIdx, herase] at h
      cases back with
      | nil => simp at hlt
      | cons entry rest =>
        cases h
        exact ⟨front, entry :: rest, rest, rfl, rfl, .remove _ entry rest, rfl⟩

/-- The kept modes are those of the lines, lexed from the first one on. -/
def Consistent (doc : Document) : Prop := Coherent .normal doc.entries

theorem consistent_iff {doc : Document} : doc.Consistent ↔ doc = ofLines doc.lines := by
  obtain ⟨entries⟩ := doc
  simp only [Consistent, coherent_iff, ofLines, lines, mk.injEq]

theorem consistent_ofLines (texts : List (List Char)) : (ofLines texts).Consistent := by
  rw [consistent_iff, lines_ofLines]

/-- One edit keeps the modes consistent, whichever it is and whether or not it is made. -/
theorem Consistent.after {doc : Document} (h : doc.Consistent) (edit : Edit) :
    (doc.after edit).Consistent := by
  unfold Document.after
  split
  · rename_i count changed hedit
    obtain ⟨front, old, new, hentries, hlength, hedited, hrelex⟩ := edit_cases hedit
    rw [Consistent, hentries, coherent_append] at h
    rw [← hlength, relexFrom_append, Prod.mk.injEq] at hrelex
    rw [Consistent, hrelex.2, coherent_append]
    exact ⟨h.1, coherent_relex _ (hedited.coherentTail h.2)⟩
  · exact h

theorem Consistent.modeBefore?_eq {doc : Document} (h : doc.Consistent) {i : Nat}
    (hi : i ≤ doc.lineCount) :
    doc.modeBefore? i = some (Line.carry .normal (doc.lines.take i)) := by
  obtain ⟨entries⟩ := doc
  have hsplit := List.take_append_drop i entries
  have hfront : Coherent .normal (entries.take i) := by
    rw [Consistent, ← hsplit, coherent_append] at h
    exact h.1
  have hlength : (entries.take i).length = i := List.length_take_of_le hi
  have hmode := modeBefore?_append (entries.take i) (entries.drop i)
  rw [hsplit, hlength, hfront.lastMode_eq, List.map_take] at hmode
  exact hmode

/-- The documents that come about by opening some lines or a text, and by edits. -/
inductive Reachable : Document → Prop where
  | lines (texts : List (List Char)) : Reachable (ofLines texts)
  | text (source : List Char) : Reachable (ofText source)
  | edit {doc : Document} (edit : Edit) : Reachable doc → Reachable (doc.after edit)

theorem Reachable.consistent {doc : Document} (h : Reachable doc) : doc.Consistent := by
  induction h with
  | lines texts => exact consistent_ofLines texts
  | text source => exact consistent_ofLines (Lines.split source)
  | edit edit _ ih => exact ih.after edit

theorem Reachable.afterAll {doc : Document} (h : Reachable doc) (edits : List Edit) :
    Reachable (doc.afterAll edits) := by
  induction edits generalizing doc with
  | nil => exact h
  | cons edit edits ih => exact ih (.edit edit h)

/-- No question tells the document from one that is lexed from its lines alone: the mode behind a
line is the one behind its last token. -/
structure LexedAfresh (doc : Document) : Prop where
  eq_ofLines : doc = ofLines doc.lines
  modes_count : doc.modes.length = doc.lineCount + 1
  first_mode : doc.modeBefore? 0 = some .normal
  next_mode : ∀ i text, doc.line? i = some text → ∃ mode, doc.modeBefore? i = some mode ∧
    doc.modeBefore? (i + 1) = some (modeAfter mode (Line.read mode text))
  last_mode : doc.modeBefore? doc.lineCount = some doc.endMode
  tokens_eq : ∀ i, i < doc.lineCount → ∃ read,
    (Line.readAll .normal (doc.lines.take (i + 1)))[i]? = some read ∧
    doc.tokens i = .ok (read.map Prod.fst) ∧ doc.lineTokens[i]? = some (read.map Prod.fst)
  lineTokens_count : doc.lineTokens.length = doc.lineCount

theorem line?_eq_some {doc : Document} {i : Nat} {text : List Char} (h : doc.line? i = some text) :
    ∃ entry, doc.entries[i]? = some entry ∧ entry.text = text := by
  simpa [line?, lines] using h

theorem Consistent.tokens_eq {doc : Document} (h : doc.Consistent) {i : Nat} {text : List Char}
    (hline : doc.line? i = some text) :
    doc.tokens i = .ok (Line.tokens (Line.carry .normal (doc.lines.take i)) text) ∧
      doc.lineTokens[i]? = some (Line.tokens (Line.carry .normal (doc.lines.take i)) text) := by
  have hi : i < doc.lineCount := line?_isSome_iff.mp (by rw [hline]; rfl)
  have hmode := h.modeBefore?_eq (Nat.le_of_lt hi)
  obtain ⟨entry, hentry, rfl⟩ := line?_eq_some hline
  constructor
  · simp only [tokens, hmode, hline]
  · rw [modeBefore?] at hmode
    simp [lineTokens, List.getElem?_zipWith, hmode, hentry]

theorem Consistent.lexedAfresh {doc : Document} (h : doc.Consistent) : LexedAfresh doc where
  eq_ofLines := consistent_iff.mp h
  modes_count := modes_length doc
  first_mode := rfl
  next_mode := by
    intro i text hline
    have hi : i < doc.lineCount := line?_isSome_iff.mp (by rw [hline]; rfl)
    refine ⟨_, h.modeBefore?_eq (Nat.le_of_lt hi), ?_⟩
    have hlines : doc.lines[i]? = some text := hline
    rw [h.modeBefore?_eq hi, List.take_add_one, hlines, Option.toList_some, Line.carry_append]
    rfl
  last_mode := by
    rw [modeBefore?, endMode, List.getLast?_eq_getElem?, modes_length, Nat.add_sub_cancel]
    have hsome : (doc.modeBefore? doc.lineCount).isSome := modeBefore?_isSome_iff.mpr (Nat.le_refl _)
    rw [modeBefore?] at hsome
    rw [← Option.some_get hsome, Option.getD_some]
  tokens_eq := by
    intro i hi
    obtain ⟨text, hline⟩ := Option.isSome_iff_exists.mp (line?_isSome_iff.mpr hi)
    have hlines : (doc.lines.take (i + 1))[i]? = some text := by
      rw [List.getElem?_take_of_lt (Nat.lt_succ_self i)]
      exact hline
    refine ⟨Line.read (Line.carry .normal (doc.lines.take i)) text, ?_, h.tokens_eq hline⟩
    rw [Line.readAll_getElem?, hlines, List.take_take, Nat.min_eq_left (Nat.le_succ i)]
    rfl
  lineTokens_count := by simp [lineTokens, lineCount, modes]

/-- Incremental lexing is lexing from scratch: after any history of edits, made or refused, the
document is the one that its lines alone give, so histories that end in the same lines end in the
same document. -/
theorem lexedAfresh_of_reachable {doc : Document} (h : Reachable doc) :
    LexedAfresh doc ∧ ∀ other, Reachable other → other.lines = doc.lines → other = doc := by
  refine ⟨h.consistent.lexedAfresh, ?_⟩
  intro other hother hlines
  rw [consistent_iff.mp hother.consistent, consistent_iff.mp h.consistent, hlines]

/-- A text is opened and a comment put above it, one edit being refused on the way; another
history gets to the same lines with a removal. -/
theorem lexedAfresh_of_two_histories :
    let doc := (ofText "a\n-\x7d b\n\"s\\".toList).afterAll
      [.insert 0 "\x7b- x".toList, .replace 9 "y".toList, .replace 1 "\x7b-#".toList]
    let other := (ofLines ["\x7b- x".toList, "\x7b-#".toList, "z".toList, "-\x7d b".toList]).afterAll
      [.insert 4 "\"s\\".toList, .remove 2]
    LexedAfresh doc ∧ other.lines = doc.lines ∧ other = doc := by
  intro doc other
  have hdoc : Reachable doc := (Reachable.text _).afterAll _
  have hother : Reachable other := (Reachable.lines _).afterAll _
  have hlines : other.lines = doc.lines := by decide +kernel
  have h := lexedAfresh_of_reachable hdoc
  exact ⟨h.1, hlines, h.2 other hother hlines⟩

end Document

end BoardHighlight
