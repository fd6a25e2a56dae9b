import BoardHighlight.Text.Unprintable

/-!
# Quoted text

Messages and dumps show text between double quotes. Inside, a quote and a backslash follow a
backslash, five control characters have a letter of their own, and a character that cannot be
shown is spelled by its number in hexadecimal digits between braces.

Which characters are spelled by number is a parameter; `quote` takes those without a glyph.
-/

namespace BoardHighlight
set_option autoImplicit false

namespace Quoted

/-- The number of a character, as it is spelled. -/
def spelled (c : Char) : List Char :=
  '\\' :: 'u' :: '{' :: Nat.toDigits 16 c.toNat ++ ['}']

def encodeChar (byNumber : Char → Bool) (c : Char) : List Char :=
  if c == '"' then ['\\', '"']
  else if c == '\\' then ['\\', '\\']
  else if c == '\n' then ['\\', 'n']
  else if c == '\r' then ['\\', 'r']
  else if c == '\t' then ['\\', 't']
  else if c == '\x00' then ['\\', '0']
  else if byNumber c then spelled c
  else [c]

def encode (byNumber : Char → Bool) (text : List Char) : List Char :=
  '"' :: text.flatMap (encodeChar byNumber) ++ ['"']

/-- The text as messages and dumps show it. -/
def quote (text : List Char) : List Char := encode isUnprintable text

end Quoted

end BoardHighlight
