import BoardHighlight.Text.Lowercase

/-!
# Output formats

Highlighted source comes in four formats. A format is asked for by name, in any case; two of them
have a second name.
-/

namespace BoardHighlight
set_option autoImplicit false

inductive Format where
  | ansi
  | html
  | json
  | plain
  deriving DecidableEq

namespace Format

def names : List (String × Format) :=
  [("ansi", ansi), ("term", ansi), ("html", html), ("json", json), ("plain", plain),
    ("text", plain)]

def ofName? (name : List Char) : Option Format :=
  (names.find? (·.1.toList == lowercase name)).map Prod.snd

def name : Format → String
  | ansi => "Ansi"
  | html => "Html"
  | json => "Json"
  | plain => "Plain"

end Format

end BoardHighlight
