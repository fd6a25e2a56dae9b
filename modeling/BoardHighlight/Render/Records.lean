import BoardHighlight.Document
import BoardHighlight.Json

/-!
# Tokens as JSON

A source is written as one object with its name and an array for each line, which holds an object
for each token. The style is null for the kind that has no tag.
-/

namespace BoardHighlight
set_option autoImplicit false

namespace Json

def ofStyle : Option String → Json
  | some tag => .string tag.toList
  | none => .null

/-- A token with its style. -/
def ofToken (token : Token) : Json :=
  .object [("kind", .string token.kind.name.toList), ("style", ofStyle token.kind.style?),
    ("lexeme", .string token.lexeme)]

/-- A token as it is written on its own. -/
def ofBareToken (token : Token) : Json :=
  .object [("kind", .string token.kind.name.toList), ("lexeme", .string token.lexeme)]

def ofLines (file : List Char) (lines : List (List Token)) : Json :=
  .object [("file", .string file),
    ("lines", .array (lines.map fun tokens => .array (tokens.map ofToken)))]

end Json

namespace Document

def toJson (doc : Document) (file : List Char) : List Char :=
  (Json.ofLines file doc.lineTokens).pretty 0 ++ ['\n']

end Document

end BoardHighlight
