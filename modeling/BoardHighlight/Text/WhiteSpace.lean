import BoardHighlight.Text.CodePoint

/-!
# White space

The characters with the property `White_Space`, at which names of colours and styles are cut into
words.
-/

namespace BoardHighlight
set_option autoImplicit false

/-- The ranges of white space. -/
def whiteSpaceRanges : List (Nat × Nat) :=
  [
    (0x9, 0xD), (0x20, 0x20), (0x85, 0x85), (0xA0, 0xA0), (0x1680, 0x1680), (0x2000, 0x200A),
    (0x2028, 0x2029), (0x202F, 0x202F), (0x205F, 0x205F), (0x3000, 0x3000) ]

def isWhiteSpace (c : Char) : Bool := inRanges whiteSpaceRanges c.toNat

/-- Adds a word to some words, unless it is empty. -/
def consWord (word : List Char) (words : List (List Char)) : List (List Char) :=
  if word.isEmpty then words else word :: words

/-- The words of a text that goes on a word already begun. -/
def wordsFrom (word : List Char) : List Char → List (List Char)
  | [] => consWord word []
  | c :: rest =>
    if isWhiteSpace c then consWord word (wordsFrom [] rest) else wordsFrom (word ++ [c]) rest

/-- The words of a text: its longest pieces without white space. -/
def words (text : List Char) : List (List Char) := wordsFrom [] text

end BoardHighlight
