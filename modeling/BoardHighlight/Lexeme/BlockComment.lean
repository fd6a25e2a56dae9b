import BoardHighlight.Lexeme.Cut

/-!
# Block comments

Block comments nest and run over any number of lines. On one line the lexer reads openers and
closers as units of two characters, and stops behind the closer that ends the outermost comment.
No delimiter spans two lines.
-/

namespace BoardHighlight
set_option autoImplicit false

namespace BlockComment

def opener : String := "\x7b-"

def closer : String := "-\x7d"

/-- How many characters belong to a comment that is `depth` levels deep at the front of the text,
and the depth at the end of the text if it is still open there. -/
def scan : List Char → Depth → Nat × Option Depth
  | [], depth => (0, some depth)
  | [_], depth => (1, some depth)
  | a :: b :: rest, depth =>
    if a == '{' && b == '-' then
      let found := scan rest depth.deeper
      (2 + found.1, found.2)
    else if a == '-' && b == '}' then
      match depth.shallower? with
      | none => (2, none)
      | some outer =>
        let found := scan rest outer
        (2 + found.1, found.2)
    else
      let found := scan (b :: rest) depth
      (1 + found.1, found.2)

/-- The part of the line that belongs to the comment is one lexeme. -/
def cut (kind : CommentKind) (depth : Depth) (cs : List Char) : Cut :=
  match scan cs depth with
  | (size, none) => .normal kind.tokenKind size
  | (size, some left) => ⟨kind.tokenKind, size, .blockComment kind left⟩

end BlockComment

end BoardHighlight
