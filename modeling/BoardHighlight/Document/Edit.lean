import BoardHighlight.Document

/-!
# Edits of a document

An edit replaces, inserts or removes one line. It lexes again from the line that it touched, and
stops behind the first line whose mode did not change: the lines after that one still start as they
did. An edit that fails leaves the document as it is.
-/

namespace BoardHighlight
set_option autoImplicit false

inductive Edit where
  | replace (line : Nat) (text : List Char)
  | insert (line : Nat) (text : List Char)
  | remove (line : Nat)
  deriving DecidableEq

namespace Document

/-- Lexes entries again from a mode until one of them ends in the mode that is kept for it.
Answers how many were lexed, and the entries with their modes. -/
def relex (mode : Mode) : List Entry → Nat × List Entry
  | [] => (0, [])
  | entry :: rest =>
    let after := Line.endMode mode entry.text
    if after = entry.after then (1, entry :: rest)
    else
      let done := relex after rest
      (done.1 + 1, ⟨entry.text, after⟩ :: done.2)

/-- Lexes again from line `i` on, in entries whose structure is already the new one. -/
def relexFrom (i : Nat) (entries : List Entry) : Nat × Document :=
  let mode := ((Document.mk entries).modeBefore? i).getD .normal
  let done := relex mode (entries.drop i)
  (done.1, ⟨entries.take i ++ done.2⟩)

/-- Replaces the text of a line, and answers how many lines were lexed again. -/
def replace (doc : Document) (i : Nat) (text : List Char) : Except EditError (Nat × Document) :=
  if doc.lineCount ≤ i then .error (.outOfRange i doc.lineCount)
  else if '\n' ∈ text then .error (.lineBreak i)
  else .ok (relexFrom i (doc.entries.modify i fun entry => { entry with text }))

/-- Inserts a line before line `i`, or behind the last one. The line that started at `i` still
starts in the same mode, which therefore stands after the new line until it is lexed. -/
def insert (doc : Document) (i : Nat) (text : List Char) : Except EditError (Nat × Document) :=
  match doc.modeBefore? i with
  | none => .error (.outOfRange i doc.lineCount)
  | some mode =>
    if '\n' ∈ text then .error (.lineBreak i)
    else .ok (relexFrom i (doc.entries.insertIdx i ⟨text, mode⟩))

/-- Removes a line together with the mode after it. -/
def remove (doc : Document) (i : Nat) : Except EditError (Nat × Document) :=
  if doc.lineCount ≤ i then .error (.outOfRange i doc.lineCount)
  else .ok (relexFrom i (doc.entries.eraseIdx i))

/-- Makes an edit, and answers how many lines were lexed again. -/
def edit (doc : Document) : Edit → Except EditError (Nat × Document)
  | .replace i text => doc.replace i text
  | .insert i text => doc.insert i text
  | .remove i => doc.remove i

/-- The document after an edit, whether or not it was made. -/
def after (doc : Document) (edit : Edit) : Document :=
  match doc.edit edit with
  | .ok (_, changed) => changed
  | .error _ => doc

/-- The document after a history of edits. -/
def afterAll (doc : Document) (edits : List Edit) : Document := edits.foldl after doc

@[simp] theorem relex_texts (mode : Mode) (entries : List Entry) :
    (relex mode entries).2.map (·.text) = entries.map (·.text) := by
  induction entries generalizing mode with
  | nil => rfl
  | cons entry rest ih =>
    unfold relex
    dsimp only
    split
    · rfl
    · simp [ih]

/-- Lexing again changes modes only. -/
@[simp] theorem relexFrom_lines (i : Nat) (entries : List Entry) :
    (relexFrom i entries).2.lines = entries.map (·.text) := by
  simp only [relexFrom, lines, List.map_append, relex_texts]
  rw [← List.map_append, List.take_append_drop]

end Document

end BoardHighlight
