import BoardHighlight.Text.Digits
import BoardHighlight.Toml.Value

/-!
# Scalars of TOML

Booleans, numbers and dates are words: they run up to the first character that cannot be part of
one. Integers fit into 64 bits and floats stay below infinity unless they say so. A date may be
followed by a time, behind a `T` or a single space.
-/

namespace BoardHighlight
namespace Toml
set_option autoImplicit false

namespace Scalar

def isWordChar (c : Char) : Bool :=
  c.isAlphanum || c == '+' || c == '-' || c == '_' || c == '.' || c == ':'

def isSign (c : Char) : Bool := c == '+' || c == '-'

def dropSign (word : List Char) : List Char :=
  match word with
  | c :: rest => if isSign c then rest else word
  | [] => []

/-- Digits with single underscores between them, without the underscores. -/
def groupedDigits? (accepts : Char → Bool) : List Char → Option (List Char)
  | [] => none
  | [c] => if accepts c then some [c] else none
  | c :: d :: rest =>
    if accepts c then
      if d == '_' then (groupedDigits? accepts rest).map (c :: ·)
      else (groupedDigits? accepts (d :: rest)).map (c :: ·)
    else none

/-- Decimal digits as integers have them: no zero in front of others. -/
def wholeDigits? (digits : List Char) : Option (List Char) := do
  let plain ← groupedDigits? isDigit digits
  match plain with
  | '0' :: _ :: _ => none
  | _ => some plain

def maxInteger : Nat := 9223372036854775807

/-- Whether a word is an integer of 64 bits. -/
def isInteger (word : List Char) : Bool :=
  let based (base : Nat) (accepts : Char → Bool) (digits : List Char) : Bool :=
    match groupedDigits? accepts digits with
    | some plain => digitsValue base plain ≤ maxInteger
    | none => false
  match word with
  | '0' :: 'x' :: digits => based 16 isHexDigit digits
  | '0' :: 'o' :: digits => based 8 isOctDigit digits
  | '0' :: 'b' :: digits => based 2 (fun c => c == '0' || c == '1') digits
  | _ =>
    match wholeDigits? (dropSign word) with
    | some plain =>
      digitsValue 10 plain ≤ (if word.head? == some '-' then maxInteger + 1 else maxInteger)
    | none => false

/-- Whether `mantissa * 10 ^ exponent` is too large for a float of 64 bits: at least halfway from
the largest one to 2 ^ 1024. `digits` is the number of the mantissa's digits. -/
def isInfinite (mantissa digits : Nat) (exponent : Int) : Bool :=
  if mantissa == 0 then false
  else
    let size := exponent + Int.ofNat digits
    if 310 < size then true
    else if size < 308 then false
    else
      let bound := Nat.pow 2 1024 - Nat.pow 2 970
      if 0 ≤ exponent then bound ≤ mantissa * Nat.pow 10 exponent.toNat
      else bound * Nat.pow 10 (-exponent).toNat ≤ mantissa

/-- The value of an exponent: a sign and digits, with underscores. -/
def exponent? (text : List Char) : Option Int := do
  let digits ← groupedDigits? isDigit (dropSign text)
  let size := Int.ofNat (digitsValue 10 digits)
  some (if text.head? == some '-' then -size else size)

def isExponentMark (c : Char) : Bool := c == 'e' || c == 'E'

/-- Whether a word is a float: a whole part and a fraction, an exponent or both; or infinity or
not a number by name. -/
def isFloat (word : List Char) : Bool :=
  let unsigned := dropSign word
  if unsigned == "inf".toList || unsigned == "nan".toList then true
  else
    let before := unsigned.takeWhile (!isExponentMark ·)
    let behind := unsigned.dropWhile (!isExponentMark ·)
    let whole := before.takeWhile (· != '.')
    let fraction := before.dropWhile (· != '.')
    let parts? : Option (List Char × List Char × Int) := do
      let whole ← wholeDigits? whole
      let places ← match fraction with
        | [] => some []
        | _ :: digits => groupedDigits? isDigit digits
      let exponent ← match behind with
        | [] => some 0
        | _ :: text => exponent? text
      if fraction.isEmpty && behind.isEmpty then none else some (whole, places, exponent)
    match parts? with
    | none => false
    | some (whole, places, exponent) =>
      let digits := (whole ++ places).dropWhile (· == '0')
      word.head? == some '-' ||
        !isInfinite (digitsValue 10 digits) digits.length (exponent - Int.ofNat places.length)

/-- The number of a fixed count of digits. -/
def fixed? (count : Nat) (text : List Char) : Option (Nat × List Char) :=
  let digits := text.take count
  if digits.length == count && digits.all isDigit then some (digitsValue 10 digits, text.drop count)
  else none

def daysInMonth (year month : Nat) : Nat :=
  if month == 2 then
    if year % 4 == 0 && (year % 100 != 0 || year % 400 == 0) then 29 else 28
  else if month == 4 || month == 6 || month == 9 || month == 11 then 30
  else 31

/-- What follows a date at the front of a text. -/
def afterDate? (text : List Char) : Option (List Char) := do
  let (year, text) ← fixed? 4 text
  let '-' :: text := text | none
  let (month, text) ← fixed? 2 text
  let '-' :: text := text | none
  let (day, text) ← fixed? 2 text
  if 1 ≤ month && month ≤ 12 && 1 ≤ day && day ≤ daysInMonth year month then some text else none

/-- What follows hours and minutes at the front of a text. -/
def afterClock? (text : List Char) : Option (List Char) := do
  let (hour, text) ← fixed? 2 text
  let ':' :: text := text | none
  let (minute, text) ← fixed? 2 text
  if hour ≤ 23 && minute ≤ 59 then some text else none

/-- What follows a time at the front of a text. A minute may have a leap second. -/
def afterTime? (text : List Char) : Option (List Char) := do
  let text ← afterClock? text
  let ':' :: text := text | none
  let (second, text) ← fixed? 2 text
  if 60 < second then none
  else
    match text with
    | '.' :: places =>
      if (places.head?.map isDigit).getD false then some (places.dropWhile isDigit)
      else none
    | _ => some text

/-- Whether a text is empty or the distance of a clock from the common one. -/
def isOffset (text : List Char) : Bool :=
  match text with
  | [] => true
  | ['Z'] | ['z'] => true
  | c :: rest => isSign c && afterClock? rest == some []

/-- Whether a text is a time with or without an offset. -/
def isClockTime (text : List Char) : Bool :=
  match afterTime? text with
  | some offset => isOffset offset
  | none => false

/-- Whether a word is a date, a time, or both. -/
def isDate (word : List Char) : Bool :=
  match afterDate? word with
  | some [] => true
  | some (mark :: time) => (mark == 'T' || mark == 't') && isClockTime time
  | none => afterTime? word == some []

/-- A single space behind a date goes on with a time if two digits and a colon follow. -/
def timeFollows (text : List Char) : Bool :=
  match text with
  | ' ' :: h :: m :: ':' :: _ => h.isDigit && m.isDigit
  | _ => false

/-- Reads a boolean, a number or a date at the front of a text. -/
def read? (text : List Char) : Option (Value × List Char) :=
  let word := text.takeWhile isWordChar
  let rest := text.dropWhile isWordChar
  if word == "true".toList then some (.boolean true, rest)
  else if word == "false".toList then some (.boolean false, rest)
  else if isInteger word || isFloat word then some (.number word, rest)
  else if afterDate? word == some [] && timeFollows rest then
    let time := (rest.drop 1).takeWhile isWordChar
    if isClockTime time then
      some (.date (word ++ ' ' :: time), (rest.drop 1).dropWhile isWordChar)
    else none
  else if isDate word then some (.date word, rest)
  else none

end Scalar

end Toml
end BoardHighlight
