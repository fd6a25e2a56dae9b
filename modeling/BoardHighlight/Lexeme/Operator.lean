import BoardHighlight.CharClass
import BoardHighlight.Lexeme.Cut

/-!
# Operators and line comments

An operator is a run of operator symbols. Two or more dashes open a comment that runs to the end
of the line, unless a further operator symbol stands right behind the dashes: then the whole run
is an operator. Two dots in front of a run are a token of their own.
-/

namespace BoardHighlight
set_option autoImplicit false

namespace Operator

def lineComment : String := "--"

/-- A colon in front makes a run a constructor, as a capital makes a name one. -/
def genericKind (first : Char) : Kind := if first == ':' then .typeOrConstructor else .identifier

/-- Cuts at an operator symbol with the given characters behind it. -/
def cut (first : Char) (rest : List Char) : Cut :=
  let run := 1 + runLength isOperatorSymbol rest
  if first == '.' && rest.head? == some '.' then .normal .keyword 2
  else if first == '-' && rest.head? == some '-' then
    match rest.dropWhile (· == '-') with
    | [] => .normal .comment (1 + rest.length)
    | symbol :: _ =>
      if isOperatorSymbol symbol then .normal (genericKind first) run
      else .normal .comment (1 + rest.length)
  else .normal (genericKind first) run

end Operator

end BoardHighlight
