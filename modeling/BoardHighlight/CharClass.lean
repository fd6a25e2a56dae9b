/-!
# Character classes of the lexical grammar

The lexer tells characters apart by nine classes. All but one lie within ASCII: every code
point from U+00A1 on continues an identifier, so a name may hold any letter after its first.
-/

namespace BoardHighlight
set_option autoImplicit false

/-- A small ASCII letter or an underscore starts the name of a value. -/
def isLowerStart (c : Char) : Bool := c.isLower || c == '_'

/-- A capital ASCII letter starts the name of a type, a constructor or a qualifier. -/
def isUpperStart (c : Char) : Bool := c.isUpper

def isDigit (c : Char) : Bool := c.isDigit

def isHexDigit (c : Char) : Bool :=
  c.isDigit || ('a' ≤ c && c ≤ 'f') || ('A' ≤ c && c ≤ 'F')

def isOctDigit (c : Char) : Bool := '0' ≤ c && c ≤ '7'

/-- What may follow the first letter of a name: letters, digits, `_`, the prime, and every
code point from U+00A1 on. -/
def isIdentContinue (c : Char) : Bool :=
  isLowerStart c || isUpperStart c || isDigit c || c == '\'' || 0xA1 ≤ c.toNat

def operatorSymbols : List Char := "-!#$%&*+./<=>?@\\^|~:".toList

def isOperatorSymbol (c : Char) : Bool := operatorSymbols.contains c

def punctuationMarks : List Char := "(),;[]`\x7b\x7d".toList

def isPunctuation (c : Char) : Bool := punctuationMarks.contains c

/-- Blanks within a line: space, tab, vertical tab and form feed. -/
def isBlank (c : Char) : Bool := c == ' ' || c == '\t' || c == '\x0b' || c == '\x0c'

/-- The classes by name. -/
inductive CharClass where
  | lowerStart
  | upperStart
  | digit
  | hexDigit
  | octDigit
  | identContinue
  | operatorSymbol
  | punctuation
  | horizontalBlank
  deriving DecidableEq

namespace CharClass

def all : List CharClass :=
  [lowerStart, upperStart, digit, hexDigit, octDigit, identContinue, operatorSymbol, punctuation,
    horizontalBlank]

def name : CharClass → String
  | lowerStart => "lower_start"
  | upperStart => "upper_start"
  | digit => "digit"
  | hexDigit => "hex_digit"
  | octDigit => "oct_digit"
  | identContinue => "ident_continue"
  | operatorSymbol => "operator_symbol"
  | punctuation => "punctuation"
  | horizontalBlank => "horizontal_whitespace"

def ofName? (name : String) : Option CharClass := all.find? (·.name == name)

def contains : CharClass → Char → Bool
  | lowerStart => isLowerStart
  | upperStart => isUpperStart
  | digit => isDigit
  | hexDigit => isHexDigit
  | octDigit => isOctDigit
  | identContinue => isIdentContinue
  | operatorSymbol => isOperatorSymbol
  | punctuation => isPunctuation
  | horizontalBlank => isBlank

/-- The classes that a character is in, in the order of `all`. -/
def classesOf (c : Char) : List CharClass := all.filter (·.contains c)

theorem mem_all (k : CharClass) : k ∈ all := by cases k <;> decide

@[simp] theorem ofName?_name (k : CharClass) : ofName? k.name = some k := by cases k <;> decide

theorem mem_classesOf {c : Char} {k : CharClass} : k ∈ classesOf c ↔ k.contains c = true := by
  simp [classesOf, mem_all]

end CharClass

end BoardHighlight
