/-!
# Strings of JSON

A string stands between double quotes. Only what the format requires is escaped: the quote, the
backslash and the control characters below U+0020, five of which have a letter of their own.
-/

namespace BoardHighlight
set_option autoImplicit false

namespace JsonString

/-- The four digits of a control character: its number is below 32. -/
def controlDigits (c : Char) : List Char :=
  ['0', '0', Nat.digitChar (c.toNat / 16), Nat.digitChar (c.toNat % 16)]

def encodeChar (c : Char) : List Char :=
  if c == '"' then ['\\', '"']
  else if c == '\\' then ['\\', '\\']
  else if c == '\x08' then ['\\', 'b']
  else if c == '\x0c' then ['\\', 'f']
  else if c == '\n' then ['\\', 'n']
  else if c == '\r' then ['\\', 'r']
  else if c == '\t' then ['\\', 't']
  else if c.toNat < 32 then '\\' :: 'u' :: controlDigits c
  else [c]

def encode (text : List Char) : List Char := '"' :: text.flatMap encodeChar ++ ['"']

end JsonString

end BoardHighlight
