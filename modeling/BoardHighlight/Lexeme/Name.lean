import BoardHighlight.CharClass
import BoardHighlight.Lexeme.Cut

/-!
# Names

A name that starts small is an identifier. A name that starts with a capital is a type or a
constructor, or, with a dot right behind it, the qualifier of the name that follows; the dot
belongs to the qualifier.
-/

namespace BoardHighlight
set_option autoImplicit false

namespace Name

/-- Cuts at a small letter or underscore with the given characters behind it. -/
def lowerCut (rest : List Char) : Cut :=
  .normal .identifier (1 + runLength isIdentContinue rest)

/-- Cuts at a capital with the given characters behind it. -/
def upperCut (rest : List Char) : Cut :=
  let size := 1 + runLength isIdentContinue rest
  if (rest.dropWhile isIdentContinue).head? == some '.' then .normal .qualifier (size + 1)
  else .normal .typeOrConstructor size

end Name

end BoardHighlight
