import BoardHighlight.Line

/-!
# Documents

A document keeps, with every line, the mode in which the lexer leaves it. The first line always
starts in normal mode, so these modes are all that has to be kept. The tokens of a line are lexed
from the mode before it when they are asked for.
-/

namespace BoardHighlight
set_option autoImplicit false

/-- A line and the mode after it. -/
structure Entry where
  text : List Char
  after : Mode
  deriving DecidableEq

/-- Why an edit or a question about a line cannot be answered. -/
inductive EditError where
  | outOfRange (line count : Nat)
  | lineBreak (line : Nat)
  deriving DecidableEq

namespace EditError

def message : EditError → List Char
  | outOfRange line count =>
    "line ".toList ++ Nat.toDigits 10 line ++ " is out of range (document has ".toList ++
      Nat.toDigits 10 count ++ " lines)".toList
  | lineBreak line =>
    "text for line ".toList ++ Nat.toDigits 10 line ++ " contains a line break".toList

end EditError

structure Document where
  entries : List Entry
  deriving DecidableEq

namespace Document

/-- Lexes lines one after the other, the first from the given mode. -/
def lexEntries (mode : Mode) : List (List Char) → List Entry
  | [] => []
  | text :: rest =>
    let after := Line.endMode mode text
    ⟨text, after⟩ :: lexEntries after rest

/-- Lines are kept as they are given. -/
def ofLines (lines : List (List Char)) : Document := ⟨lexEntries .normal lines⟩

def ofText (text : List Char) : Document := ofLines (Lines.split text)

def empty : Document := ⟨[]⟩

def lines (doc : Document) : List (List Char) := doc.entries.map (·.text)

def lineCount (doc : Document) : Nat := doc.entries.length

def isEmpty (doc : Document) : Bool := doc.entries.isEmpty

def line? (doc : Document) (i : Nat) : Option (List Char) := doc.lines[i]?

/-- The mode before each line, and last the mode at the end. -/
def modes (doc : Document) : List Mode := .normal :: doc.entries.map (·.after)

/-- The mode before a line; one past the last line it is the mode at the end. -/
def modeBefore? (doc : Document) (i : Nat) : Option Mode := doc.modes[i]?

def endMode (doc : Document) : Mode := (doc.modes.getLast?).getD .normal

/-- The lines joined by line feeds. -/
def text (doc : Document) : List Char := Lines.join doc.lines

/-- The tokens of every line, each lexed from the mode that is kept for it. -/
def lineTokens (doc : Document) : List (List Token) :=
  List.zipWith (fun mode entry => Line.tokens mode entry.text) doc.modes doc.entries

def tokens (doc : Document) (i : Nat) : Except EditError (List Token) :=
  match doc.modeBefore? i, doc.line? i with
  | some mode, some text => .ok (Line.tokens mode text)
  | _, _ => .error (.outOfRange i doc.lineCount)

@[simp] theorem modes_length (doc : Document) : doc.modes.length = doc.lineCount + 1 := by
  simp [modes, lineCount]

theorem modeBefore?_isSome_iff {doc : Document} {i : Nat} :
    (doc.modeBefore? i).isSome ↔ i ≤ doc.lineCount := by
  rw [modeBefore?, isSome_getElem?, modes_length]
  exact Nat.lt_succ_iff

theorem line?_isSome_iff {doc : Document} {i : Nat} :
    (doc.line? i).isSome ↔ i < doc.lineCount := by
  simp [line?, lines, lineCount]

@[simp] theorem lexEntries_map_text (mode : Mode) (texts : List (List Char)) :
    (lexEntries mode texts).map (·.text) = texts := by
  induction texts generalizing mode with
  | nil => rfl
  | cons text rest ih => simp [lexEntries, ih]

@[simp] theorem lines_ofLines (texts : List (List Char)) : (ofLines texts).lines = texts :=
  lexEntries_map_text _ _

theorem lineTokens_length (doc : Document) : doc.lineTokens.length = doc.lineCount := by
  simp [lineTokens, lineCount, modes]

theorem lineTokens_getElem? {doc : Document} {i : Nat} {tokens : List Token}
    (h : doc.lineTokens[i]? = some tokens) :
    ∃ mode text, doc.modeBefore? i = some mode ∧ doc.line? i = some text ∧
      tokens = Line.tokens mode text := by
  obtain ⟨mode, entry, hmode, hentry, rfl⟩ := List.getElem?_zipWith_eq_some.mp h
  refine ⟨mode, entry.text, hmode, ?_, rfl⟩
  rw [line?, lines, List.getElem?_map, hentry]
  rfl

end Document

end BoardHighlight
