/-!
# Hexadecimal digits

## Main definitions

* `hexDigit` — the digit of a value below sixteen, in lower case.
* `hexValue?` — the value of a digit in either case.
-/

namespace Gauge.Text

/-- The digit of a value below sixteen. -/
def hexDigit (n : Nat) : Char := if n < 10 then Char.ofNat (48 + n) else Char.ofNat (87 + n)

/-- The value of a digit. -/
def hexValue? (c : Char) : Option Nat :=
  if c.isDigit then some (c.toNat - 48)
  else if 'a' ≤ c ∧ c ≤ 'f' then some (c.toNat - 87)
  else if 'A' ≤ c ∧ c ≤ 'F' then some (c.toNat - 55)
  else none

/-- The number that hexadecimal digits denote, if they are digits. -/
def hexNumber? (digits : List Char) : Option Nat :=
  (digits.mapM hexValue?).map fun values => values.foldl (16 * · + ·) 0

end Gauge.Text
