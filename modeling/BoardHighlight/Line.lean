import BoardHighlight.Lexer
import BoardHighlight.Text.Lines

/-!
# Lexing one line

A line is lexed from the mode in which the line before it ended. A terminator that the text still
carries is not part of the line.
-/

namespace BoardHighlight
set_option autoImplicit false

namespace Line

/-- The tokens of a line, each with the mode after it. -/
def read (mode : Mode) (text : List Char) : List (Token × Mode) :=
  lexFrom mode (Lines.dropTerminator text)

def tokens (mode : Mode) (text : List Char) : List Token := (read mode text).map Prod.fst

/-- The mode in which the next line starts. -/
def endMode (mode : Mode) (text : List Char) : Mode := modeAfter mode (read mode text)

@[simp] theorem tokens_nil (mode : Mode) : tokens mode [] = [] := by simp [tokens, read]

@[simp] theorem endMode_nil (mode : Mode) : endMode mode [] = mode := by simp [endMode, read]

/-- The tokens show the line without its terminator. -/
theorem text_tokens (mode : Mode) (text : List Char) :
    Token.text (tokens mode text) = Lines.dropTerminator text := text_lexFrom _ _

end Line

end BoardHighlight
