import BoardHighlight.Document
import BoardHighlight.Theme

/-!
# Terminal output

Every line is its tokens one after the other, painted by a palette, and a line feed. Without a
palette this gives the lines themselves.
-/

namespace BoardHighlight
set_option autoImplicit false

namespace Terminal

def token (palette : Option Palette) (token : Token) : List Char :=
  match palette with
  | some palette => palette.paint token
  | none => token.lexeme

def line (palette : Option Palette) (tokens : List Token) : List Char :=
  tokens.flatMap (Terminal.token palette) ++ ['\n']

end Terminal

namespace Document

def toTerminal (doc : Document) (palette : Option Palette) : List Char :=
  doc.lineTokens.flatMap (Terminal.line palette)

end Document

end BoardHighlight
