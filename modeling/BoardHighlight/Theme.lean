import BoardHighlight.Kind
import BoardHighlight.Style
import BoardHighlight.Token

/-!
# Themes and palettes

A theme names a style for every kind of token that has a style tag. A palette holds the styles
themselves; making one of a theme fails at the first name, in the order of the kinds, that has a
word without a meaning.
-/

namespace BoardHighlight
set_option autoImplicit false

/-- Names of styles, one for each kind with a style tag. -/
structure Theme where
  keyword : List Char := "bold magenta".toList
  builtin : List Char := "cyan".toList
  qualifier : List Char := "blue".toList
  typeOrConstructor : List Char := "yellow".toList
  identifier : List Char := "default".toList
  integer : List Char := "green".toList
  number : List Char := "green".toList
  string : List Char := "red".toList
  badString : List Char := "bold bright-red".toList
  comment : List Char := "bright-black".toList
  pragma : List Char := "bright-blue".toList
  invalid : List Char := "bold red".toList
  deriving DecidableEq

namespace Theme

def standard : Theme := {}

/-- The name of the style for a kind. -/
def colour? (theme : Theme) : Kind → Option (List Char)
  | .keyword => some theme.keyword
  | .builtin => some theme.builtin
  | .qualifier => some theme.qualifier
  | .typeOrConstructor => some theme.typeOrConstructor
  | .identifier => some theme.identifier
  | .integer => some theme.integer
  | .number => some theme.number
  | .string => some theme.string
  | .badString => some theme.badString
  | .comment => some theme.comment
  | .pragma => some theme.pragma
  | .invalid => some theme.invalid
  | .plain => none

/-- The theme with another name for one kind. -/
def withColour (theme : Theme) (kind : Kind) (name : List Char) : Theme :=
  match kind with
  | .keyword => { theme with keyword := name }
  | .builtin => { theme with builtin := name }
  | .qualifier => { theme with qualifier := name }
  | .typeOrConstructor => { theme with typeOrConstructor := name }
  | .identifier => { theme with identifier := name }
  | .integer => { theme with integer := name }
  | .number => { theme with number := name }
  | .string => { theme with string := name }
  | .badString => { theme with badString := name }
  | .comment => { theme with comment := name }
  | .pragma => { theme with pragma := name }
  | .invalid => { theme with invalid := name }
  | .plain => theme

/-- The kinds that a theme has a name for. -/
def kinds : List Kind := Kind.all.filter (·.style?.isSome)

theorem colour?_isSome (theme : Theme) (kind : Kind) :
    (theme.colour? kind).isSome = kind.style?.isSome := by
  cases kind <;> rfl

theorem colour?_withColour (theme : Theme) (kind other : Kind) (name : List Char) :
    (theme.withColour kind name).colour? other =
      if kind = other then (theme.colour? other).map fun _ => name else theme.colour? other := by
  cases kind <;> cases other <;> rfl

end Theme

structure Palette where
  styles : List (Kind × Style)
  deriving DecidableEq

namespace Palette

/-- The styles of some kinds. -/
def stylesOf (theme : Theme) : List Kind → Except (List Char) (List (Kind × Style))
  | [] => .ok []
  | kind :: rest =>
    match theme.colour? kind with
    | none => stylesOf theme rest
    | some name =>
      match Style.ofName name with
      | .error word => .error word
      | .ok style => (stylesOf theme rest).map ((kind, style) :: ·)

/-- The styles that a theme names, or the first word in it without a meaning. -/
def ofTheme (theme : Theme) : Except (List Char) Palette :=
  (stylesOf theme Kind.all).map Palette.mk

def style? (palette : Palette) (kind : Kind) : Option Style := palette.styles.lookup kind

/-- The token's text in the style of its kind. -/
def paint (palette : Palette) (token : Token) : List Char :=
  match palette.style? token.kind with
  | some style => style.paint token.lexeme
  | none => token.lexeme

end Palette

end BoardHighlight
