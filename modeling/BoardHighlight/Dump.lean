import BoardHighlight.Document
import BoardHighlight.Text.Quoted

/-!
# Token dumps

A dump has a row for every token, with its place, its kind and its quoted lexeme, and behind the
tokens of each line a row with the mode in which the line ends. The columns of a row are set apart
by tabs. As for all quoted text, the characters that are spelled by number are a parameter of the
rows, and `dump` takes those without a glyph.
-/

namespace BoardHighlight
set_option autoImplicit false

namespace Dump

section
variable (byNumber : Char → Bool)

def tokenRow (line column : Nat) (token : Token) : List Char :=
  Nat.toDigits 10 line ++ ':' :: Nat.toDigits 10 column ++ '\t' :: token.kind.name.toList ++
    '\t' :: Quoted.encode byNumber token.lexeme ++ ['\n']

def endRow (line : Nat) (mode : Mode) : List Char :=
  Nat.toDigits 10 line ++ "\tend\t".toList ++ mode.describe ++ ['\n']

def lineRows (line : Nat) (tokens : List Token) (after : Mode) : List Char :=
  (Token.withColumns tokens).flatMap (fun (column, token) => tokenRow byNumber line column token) ++
    endRow line after

/-- The rows of lines, the first of them with the given number. -/
def rows (line : Nat) : List (List Token × Mode) → List Char
  | [] => []
  | (tokens, after) :: rest => lineRows byNumber line tokens after ++ rows (line + 1) rest

end

end Dump

namespace Document

def dumpWith (byNumber : Char → Bool) (doc : Document) : List Char :=
  Dump.rows byNumber 1 (doc.lineTokens.zip (doc.entries.map (·.after)))

def dump (doc : Document) : List Char := doc.dumpWith isUnprintable

end Document

end BoardHighlight
