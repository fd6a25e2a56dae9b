import BoardHighlight.Text.Lowercase
import BoardHighlight.Text.WhiteSpace

/-!
# Terminal styles

The name of a style is a list of words: `default`, an attribute, or a colour, which `bright-` makes
brighter. Case does not matter. Every word but `default` stands for one code, and a text is painted
by the codes in front of it and a reset behind it.
-/

namespace BoardHighlight
set_option autoImplicit false

structure Style where
  codes : List Nat
  deriving DecidableEq

namespace Style

def attributes : List (String × Nat) := [("bold", 1), ("dim", 2), ("italic", 3), ("underline", 4)]

/-- The eight colours, in the order of their codes. -/
def colours : List String :=
  ["black", "red", "green", "yellow", "blue", "magenta", "cyan", "white"]

def brightPrefix : List Char := "bright-".toList

/-- The place of a colour among the eight. -/
def colourIndex? (name : List Char) : Option Nat := colours.findIdx? (·.toList == name)

/-- Colours have the codes 30 to 37, bright ones 90 to 97. -/
def colourCode? (word : List Char) : Option Nat :=
  if brightPrefix.isPrefixOf word then
    (colourIndex? (word.drop brightPrefix.length)).map (90 + ·)
  else (colourIndex? word).map (30 + ·)

def attributeCode? (word : List Char) : Option Nat :=
  (attributes.find? (·.1.toList == word)).map Prod.snd

/-- The codes of a word in small letters: none for `default`, else one; other words have no
meaning. -/
def wordCodes? (word : List Char) : Option (List Nat) :=
  if word == "default".toList then some []
  else ((attributeCode? word).or (colourCode? word)).map ([·])

/-- Reads words one by one; the first without a meaning is the error. -/
def ofWords : List (List Char) → Except (List Char) (List Nat)
  | [] => .ok []
  | word :: rest =>
    let small := lowercase word
    match wordCodes? small with
    | none => .error small
    | some codes => (ofWords rest).map (codes ++ ·)

/-- The style with the given name, or the word in it that has no meaning. -/
def ofName (name : List Char) : Except (List Char) Style := (ofWords (words name)).map Style.mk

def escape : Char := '\x1b'

/-- The codes in decimal, set apart by semicolons. -/
def codeList (codes : List Nat) : List Char :=
  ((codes.map (Nat.toDigits 10)).intersperse [';']).flatten

/-- What switches codes on in a terminal. -/
def sequence (codes : List Nat) : List Char := escape :: '[' :: codeList codes ++ ['m']

def reset : List Char := escape :: "[0m".toList

/-- Text without codes stays as it is. -/
def paint (style : Style) (text : List Char) : List Char :=
  if style.codes.isEmpty then text else sequence style.codes ++ text ++ reset

end Style

end BoardHighlight
