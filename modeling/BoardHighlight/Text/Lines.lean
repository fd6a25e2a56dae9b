/-!
# Lines of a text

A text is cut into lines at its line feeds. A carriage return in front of a line feed goes with
it, one elsewhere stays in its line, and a line feed at the very end opens no further line.

A single line may also come with its terminator: `dropTerminator` takes off one line feed at the
end and then one carriage return, whether or not both are there.
-/

namespace BoardHighlight
set_option autoImplicit false

namespace Lines

/-- The text without one final `c`, if it ends in it. -/
def dropFinal (c : Char) (text : List Char) : List Char :=
  if text.getLast? == some c then text.dropLast else text

@[simp] theorem dropFinal_nil (c : Char) : dropFinal c [] = [] := rfl

@[simp] theorem dropFinal_append_self (c : Char) (text : List Char) :
    dropFinal c (text ++ [c]) = text := by
  simp [dropFinal]

theorem dropFinal_of_getLast?_ne {c : Char} {text : List Char} (h : text.getLast? ≠ some c) :
    dropFinal c text = text := by
  simp [dropFinal, h]

def dropTerminator (line : List Char) : List Char := dropFinal '\r' (dropFinal '\n' line)

@[simp] theorem dropTerminator_nil : dropTerminator [] = [] := rfl

/-- Cuts a text at every line feed; what follows the last one is a line if it is not empty. -/
def split : List Char → List (List Char)
  | [] => []
  | c :: rest =>
    if c == '\n' then [] :: split rest
    else if c == '\r' && rest.head? == some '\n' then split rest
    else
      match split rest with
      | [] => [[c]]
      | line :: lines => (c :: line) :: lines

/-- Lines joined by single line feeds. -/
def join : List (List Char) → List Char
  | [] => []
  | [line] => line
  | line :: next :: lines => line ++ '\n' :: join (next :: lines)

end Lines

end BoardHighlight
