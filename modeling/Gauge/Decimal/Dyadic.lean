/-!
# Binary floating point values as exact numbers

A finite float is a whole number of units `2 ^ exponent`.  Everything that writes a float in decimal
starts from this exact value, so that no rounding happens before the one that the format asks for.

## Main definitions

* `Dyadic` — the magnitude `mantissa * 2 ^ exponent`.
* `FloatShape` — a float as not a number, an infinity, or a signed magnitude.
* `roundHalfEven` — a quotient rounded to the nearest whole number, a half to the even neighbour.
-/

namespace Gauge

/-- A finite magnitude `mantissa * 2 ^ exponent`.  `narrow` says that the next smaller float is only
half as far away as the next larger one, as it is at powers of two. -/
structure Dyadic where
  mantissa : Nat
  exponent : Int
  narrow : Bool
  deriving DecidableEq

/-- What a float denotes. -/
inductive FloatShape where
  | notANumber
  | infinite (negative : Bool)
  | finite (negative : Bool) (magnitude : Dyadic)
  deriving DecidableEq

/-- How many values the 52 fraction bits of a float have. -/
def fractionSize : Nat := 1 <<< 52

/-- How many values the eleven exponent bits of a float have. -/
def exponentSize : Nat := 1 <<< 11

namespace Dyadic

/-- The magnitude that the eleven exponent bits and the fraction bits of a finite float encode. -/
def ofFields (exponentBits fraction : Nat) : Dyadic :=
  if exponentBits = 0 then { mantissa := fraction, exponent := -1074, narrow := false }
  else
    { mantissa := fractionSize + fraction
      exponent := exponentBits - 1075
      narrow := fraction = 0 ∧ 1 < exponentBits }

/-- Numerator of the magnitude as a fraction of whole numbers. -/
def num (d : Dyadic) : Nat := d.mantissa <<< d.exponent.toNat

/-- Denominator of the magnitude as a fraction of whole numbers. -/
def den (d : Dyadic) : Nat := 1 <<< (-d.exponent).toNat

end Dyadic

/-- The float that is no number. -/
def notANumber : Float := 0.0 / 0.0

def FloatShape.ofFloat (x : Float) : FloatShape :=
  let bits := x.toBits.toNat
  let negative := UInt64.size / 2 ≤ bits
  let exponentBits := bits / fractionSize % exponentSize
  let fraction := bits % fractionSize
  if exponentBits = exponentSize - 1 then
    if fraction = 0 then .infinite negative else .notANumber
  else .finite negative (.ofFields exponentBits fraction)

/-- The quotient rounded to the nearest whole number; a half goes to the even neighbour. -/
def roundHalfEven (num den : Nat) : Nat :=
  let whole := num / den
  let twice := 2 * (num % den)
  if den < twice ∨ (den = twice ∧ whole % 2 = 1) then whole + 1 else whole

end Gauge
