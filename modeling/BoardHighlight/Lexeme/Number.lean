import BoardHighlight.CharClass
import BoardHighlight.Lexeme.Cut

/-!
# Numbers

A number starts with a decimal digit. `0x` and `0o` take the digits of their base, which may be
none. A decimal number is a run of digits, then a point if a digit follows it, then an exponent
whose sign and digits may be missing. Hexadecimal numbers are integers, all others are numbers.
-/

namespace BoardHighlight
set_option autoImplicit false

namespace Number

def isHexMarker (c : Char) : Bool := c == 'x' || c == 'X'

def isOctMarker (c : Char) : Bool := c == 'o' || c == 'O'

def isExponentMarker (c : Char) : Bool := c == 'e' || c == 'E'

def isSign (c : Char) : Bool := c == '+' || c == '-'

/-- A point belongs to the number only with a digit behind it. -/
def fractionSize : List Char → Nat
  | point :: digit :: rest =>
    if point == '.' && isDigit digit then 2 + runLength isDigit rest else 0
  | _ => 0

/-- A sign, if there is one, and the digits behind it. -/
def signedDigitsSize : List Char → Nat
  | sign :: rest =>
    if isSign sign then 1 + runLength isDigit rest else runLength isDigit (sign :: rest)
  | [] => 0

def exponentSize : List Char → Nat
  | marker :: rest => if isExponentMarker marker then 1 + signedDigitsSize rest else 0
  | [] => 0

/-- The size of a decimal number at the front of a text, counted from its first digit. -/
def decimalSize (cs : List Char) : Nat :=
  let whole := runLength isDigit cs
  let fraction := fractionSize (cs.drop whole)
  whole + fraction + exponentSize (cs.drop (whole + fraction))

/-- Cuts a number whose first digit stands at the front. -/
def cut (cs : List Char) : Cut :=
  match cs with
  | '0' :: marker :: rest =>
    if isHexMarker marker then .normal .integer (2 + runLength isHexDigit rest)
    else if isOctMarker marker then .normal .number (2 + runLength isOctDigit rest)
    else .normal .number (decimalSize cs)
  | _ => .normal .number (decimalSize cs)

end Number

end BoardHighlight
