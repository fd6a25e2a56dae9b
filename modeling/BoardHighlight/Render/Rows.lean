import BoardHighlight.Document

/-!
# Plain rows

Every token with a style tag has a row: its line and column, its tag and its lexeme.
-/

namespace BoardHighlight
set_option autoImplicit false

namespace Rows

def row (line column : Nat) (tag : String) (lexeme : List Char) : List Char :=
  Nat.toDigits 10 line ++ ':' :: Nat.toDigits 10 column ++ ' ' :: tag.toList ++ ' ' :: lexeme ++
    ['\n']

/-- The row of a token, if it has one. -/
def token (line column : Nat) (token : Token) : List Char :=
  match token.kind.style? with
  | some tag => row line column tag token.lexeme
  | none => []

def line (number : Nat) (tokens : List Token) : List Char :=
  (Token.withColumns tokens).flatMap fun (column, token) => Rows.token number column token

/-- The rows of lines, the first of them with the given number. -/
def lines (number : Nat) : List (List Token) → List Char
  | [] => []
  | tokens :: rest => line number tokens ++ lines (number + 1) rest

end Rows

namespace Document

def toRows (doc : Document) : List Char := Rows.lines 1 doc.lineTokens

end Document

end BoardHighlight
