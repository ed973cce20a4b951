import Gauge.Decimal.Dyadic

/-!
# The fewest digits that read back

Every finite float stands for the interval of numbers that round to it.  The decimal chosen for it
is the one in that interval with the fewest digits and, among those, the one nearest to the float.
The search is exact: it compares whole numbers, and tries one digit, then two, and so on.

## Main definitions

* `Decimal` — `digits * 10 ^ exponent`.
* `Dyadic.Admits` — the decimal lies in the interval of numbers that round to the float.
* `Dyadic.shortest` — the chosen decimal of a non-zero magnitude.
-/

namespace Gauge

/-- The number `digits * 10 ^ exponent`. -/
structure Decimal where
  digits : Nat
  exponent : Int
  deriving DecidableEq

/-- Which of two equally near decimals is chosen. -/
inductive Tie where
  | upper
  | even
  deriving DecidableEq

def digitCount (n : Nat) : Nat := (toString n).length

namespace Decimal

/-- Moves trailing zeros of the digits into the exponent. -/
def stripped (d : Decimal) : Decimal :=
  if _h : d.digits ≠ 0 ∧ d.digits % 10 = 0 then
    stripped { digits := d.digits / 10, exponent := d.exponent + 1 }
  else d
termination_by d.digits
decreasing_by omega

end Decimal

namespace Dyadic

/-- Compares `a` quarter units of the magnitude with a decimal: `a * 2 ^ (exponent - 2)` is at most
`digits * 10 ^ exponent`. -/
def quartersLe (d : Dyadic) (a : Nat) (x : Decimal) : Bool :=
  let two := d.exponent - 2
  (a * Nat.pow 10 (-x.exponent).toNat) <<< two.toNat ≤
    (x.digits * Nat.pow 10 x.exponent.toNat) <<< (-two).toNat

/-- Compares a decimal with quarter units of the magnitude: the decimal is at most
`a * 2 ^ (exponent - 2)`. -/
def leQuarters (d : Dyadic) (x : Decimal) (a : Nat) : Bool :=
  let two := d.exponent - 2
  (x.digits * Nat.pow 10 x.exponent.toNat) <<< (-two).toNat ≤
    (a * Nat.pow 10 (-x.exponent).toNat) <<< two.toNat

/-- Whether a decimal rounds to the magnitude.  The ends of the interval lie half way to the
neighbouring floats, and belong to it when the mantissa is even. -/
def admits (d : Dyadic) (x : Decimal) : Bool :=
  let lowest := 4 * d.mantissa - (if d.narrow then 1 else 2)
  let highest := 4 * d.mantissa + 2
  if d.mantissa % 2 = 0 then d.quartersLe lowest x && d.leQuarters x highest
  else !d.leQuarters x lowest && !d.quartersLe highest x

/-- The least power of ten above a non-zero magnitude. -/
def scale (d : Dyadic) : Int :=
  if d.den ≤ d.num then digitCount (d.num / d.den)
  else 1 - (digitCount ((d.den + d.num - 1) / d.num - 1) : Int)

/-- The multiple of `10 ^ exponent` at or below the magnitude. -/
def floorAt (d : Dyadic) (exponent : Int) : Nat :=
  d.num * Nat.pow 10 (-exponent).toNat / (d.den * Nat.pow 10 exponent.toNat)

/-- Of two neighbouring decimals around the magnitude, whether the lower one is chosen: the nearer
one is, and an equal distance is settled by the tie rule. -/
def prefersLower (d : Dyadic) (tie : Tie) (lower : Decimal) : Bool :=
  let middle : Decimal := { digits := 10 * lower.digits + 5, exponent := lower.exponent - 1 }
  if d.leQuarters middle (4 * d.mantissa) then
    -- the magnitude is at or above the middle
    d.quartersLe (4 * d.mantissa) middle && tie = .even && lower.digits % 2 = 0
  else true

/-- The decimal with the given last place, if one of the two neighbours there rounds to the
magnitude. -/
def candidate? (d : Dyadic) (tie : Tie) (exponent : Int) : Option Decimal :=
  let lower : Decimal := { digits := d.floorAt exponent, exponent := exponent }
  let upper : Decimal := { digits := lower.digits + 1, exponent := exponent }
  match d.admits lower, d.admits upper with
  | true, true => some (if d.prefersLower tie lower then lower else upper)
  | true, false => some lower
  | false, true => some upper
  | false, false => none

/-- The magnitude itself as a decimal. -/
def exactly (d : Dyadic) : Decimal where
  digits := d.num * Nat.pow 5 (-d.exponent).toNat
  exponent := min d.exponent 0

/-- The decimal with the fewest digits that rounds to a non-zero magnitude.  Seventeen digits always
suffice; the exact value stands behind the search. -/
def shortest (d : Dyadic) (tie : Tie) : Decimal :=
  let found := (List.range 17).findSome? fun n => d.candidate? tie (d.scale - ((n + 1 : Nat) : Int))
  (found.getD d.exactly).stripped

end Dyadic

end Gauge
