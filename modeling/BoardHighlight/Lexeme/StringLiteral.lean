import BoardHighlight.CharClass
import BoardHighlight.Lexeme.Cut

/-!
# Character and string literals

A string literal ends on its own line, with its closing quote or with a gap: a backslash, blanks
and line ends, and a second backslash that resumes the string. Escapes are not looked into: a
backslash takes the next character with it.

`ends` says whether the reader reports the end of a line. A reader that does not can neither open
a gap at the end of its text nor rest in one there.
-/

namespace BoardHighlight
set_option autoImplicit false

namespace StringLiteral

/-- Cuts a character literal at its opening quote with the given characters behind it. -/
def charCut (rest : List Char) : Cut :=
  let escape := if rest.head? == some '\\' then 1 else 0
  match rest.drop escape with
  | [] => .normal .badString (1 + escape)
  | _ :: close =>
    if close.head? == some '\'' then .normal .string (3 + escape)
    else .normal .badString (2 + escape)

/-- Cuts the body of a string up to its closing quote, a gap or the end of the text. -/
def bodyCut (ends : Bool) : List Char → Cut
  | [] => .normal .badString 0
  | c :: rest =>
    if c == '"' then .normal .string 1
    else if c == '\\' then
      match rest with
      | [] => if ends then ⟨.string, 1, .stringGap⟩ else .normal .badString 1
      | escaped :: rest =>
        if isBlank escaped then ⟨.string, 2, .stringGap⟩ else (bodyCut ends rest).shift 2
    else (bodyCut ends rest).shift 1

/-- Within a gap: one or more blanks up to the end of the line keep it open, a backslash resumes the
string, and anything else breaks it, as does an end with nothing in front of it. -/
def gapStep (ends : Bool) (cs : List Char) : Step :=
  let blanks := runLength isBlank cs
  match cs.dropWhile isBlank with
  | [] =>
    if ends && 0 < blanks then .emit ⟨.string, blanks, .stringGap⟩
    else .emit (.normal .invalid blanks)
  | c :: _ =>
    if c == '\\' then .enter (blanks + 1) .string else .emit (.normal .invalid (blanks + 1))

end StringLiteral

end BoardHighlight
