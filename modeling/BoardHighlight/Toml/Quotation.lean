import BoardHighlight.Text.Digits

/-!
# Strings of TOML

Basic strings stand between double quotes and have escapes; literal strings stand between single
quotes and have none. Tripled quotes let either run over several lines: a line end right behind
the opening quotes is dropped, every other one becomes a line feed, and one or two quotes more may
stand in front of the closing ones.
-/

namespace BoardHighlight
namespace Toml
set_option autoImplicit false

namespace Quotation

/-- Characters that may stand in strings and comments: no control character but the tab. -/
def isShown (c : Char) : Bool := c == '\t' || (32 ≤ c.toNat && c.toNat != 127)

/-- The character with the number that hexadecimal digits give. -/
def byNumber? (digits : List Char) : Option Char :=
  let n := digitsValue 16 digits
  if digits.all isHexDigit && (n < 0xD800 || (0xDFFF < n && n < 0x110000)) then some (Char.ofNat n)
  else none

/-- The character that an escape stands for, and how many characters it takes behind the
backslash. -/
def escape? (text : List Char) : Option (Char × Nat) :=
  match text with
  | [] => none
  | c :: rest =>
    if c == 'b' then some ('\x08', 1)
    else if c == 't' then some ('\t', 1)
    else if c == 'n' then some ('\n', 1)
    else if c == 'f' then some ('\x0c', 1)
    else if c == 'r' then some ('\r', 1)
    else if c == '"' then some ('"', 1)
    else if c == '\\' then some ('\\', 1)
    else if c == 'u' then
      if rest.length < 4 then none else (byNumber? (rest.take 4)).map (·, 5)
    else if c == 'U' then
      if rest.length < 8 then none else (byNumber? (rest.take 8)).map (·, 9)
    else none

/-- Takes a line end off the front of a text. -/
def dropLineEnd? : List Char → Option (List Char)
  | '\n' :: rest => some rest
  | '\r' :: '\n' :: rest => some rest
  | _ => none

/-- What follows blanks and a line end, and all blanks and line ends behind it: the part of a
folded line that a backslash at its end leaves out. -/
def afterFold? (text : List Char) : Option (List Char) := do
  let rest ← dropLineEnd? (text.dropWhile fun c => c == ' ' || c == '\t')
  some (skip rest)
where
  skip : List Char → List Char
    | '\r' :: '\n' :: rest => skip rest
    | c :: rest => if c == ' ' || c == '\t' || c == '\n' then skip rest else c :: rest
    | [] => []

/-- Reads characters up to the closing quote of a string on one line. `fuel` bounds the number of
characters. -/
def oneLine? (quote : Char) (escapes : Bool) : Nat → List Char → Option (List Char × List Char)
  | 0, _ => none
  | _, [] => none
  | fuel + 1, c :: rest =>
    if c == quote then some ([], rest)
    else if escapes && c == '\\' then do
      let (meant, size) ← escape? rest
      let (text, behind) ← oneLine? quote escapes fuel (rest.drop size)
      some (meant :: text, behind)
    else if isShown c then do
      let (text, behind) ← oneLine? quote escapes fuel rest
      some (c :: text, behind)
    else none

/-- Reads characters up to three closing quotes. `fuel` bounds the number of characters. -/
def manyLines? (quote : Char) (escapes : Bool) : Nat → List Char → Option (List Char × List Char)
  | 0, _ => none
  | _, [] => none
  | fuel + 1, c :: rest =>
    if c == quote then
      let run := ((c :: rest).takeWhile (· == quote)).length
      if run < 3 then do
        let (text, behind) ← manyLines? quote escapes fuel rest
        some (c :: text, behind)
      else
        let kept := min run 5 - 3
        some (List.replicate kept quote, (c :: rest).drop (kept + 3))
    else if escapes && c == '\\' then
      match afterFold? rest with
      | some rest => manyLines? quote escapes fuel rest
      | none => do
        let (meant, size) ← escape? rest
        let (text, behind) ← manyLines? quote escapes fuel (rest.drop size)
        some (meant :: text, behind)
    else
      match dropLineEnd? (c :: rest) with
      | some rest => do
        let (text, behind) ← manyLines? quote escapes fuel rest
        some ('\n' :: text, behind)
      | none =>
        if isShown c then do
          let (text, behind) ← manyLines? quote escapes fuel rest
          some (c :: text, behind)
        else none

/-- Reads a string on one line, its opening quote being the given one. -/
def readOneLine? (quote : Char) (rest : List Char) : Option (List Char × List Char) :=
  oneLine? quote (quote == '"') (rest.length + 1) rest

/-- Reads a string of either layout behind its first quote. -/
def read? (quote : Char) (rest : List Char) : Option (List Char × List Char) :=
  if rest.take 2 == [quote, quote] then
    let body := rest.drop 2
    let body := (dropLineEnd? body).getD body
    manyLines? quote (quote == '"') (body.length + 1) body
  else readOneLine? quote rest

end Quotation

end Toml
end BoardHighlight
