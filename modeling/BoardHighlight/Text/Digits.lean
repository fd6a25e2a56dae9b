import BoardHighlight.CharClass

/-!
# Digits

The number that digits of a base up to sixteen stand for.
-/

namespace BoardHighlight
set_option autoImplicit false

/-- The value of a digit; letters in either case are the digits from ten on. -/
def digitValue (c : Char) : Nat :=
  if isDigit c then c.toNat - 48
  else if 'a' ≤ c then c.toNat - 87
  else c.toNat - 55

/-- The value of digits, the first of them the highest. -/
def digitsValue (base : Nat) (digits : List Char) : Nat :=
  digits.foldl (fun n c => n * base + digitValue c) 0

end BoardHighlight
