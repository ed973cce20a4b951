import Gauge.Decimal.Dyadic

/-!
# Decimals with a fixed number of places

The exact value of a float, rounded once to a given number of places.  A half goes to the even
digit, and the sign is kept even where only zeros remain.

## Main definitions

* `placed places n` — a whole number of units of the last place, with the point set.
* `fixed places x` — a float with that many places.
-/

namespace Gauge

def padLeft (width : Nat) (c : Char) (text : String) : String :=
  String.ofList (List.replicate (width - text.length) c) ++ text

/-- Writes `n` units of the last of `places` decimal places. -/
def placed (places n : Nat) : String :=
  if places = 0 then toString n
  else
    let scale := Nat.pow 10 places
    toString (n / scale) ++ "." ++ padLeft places '0' (toString (n % scale))

/-- A float with a fixed number of places. -/
def fixed (places : Nat) (x : Float) : String :=
  match FloatShape.ofFloat x with
  | .notANumber => "NaN"
  | .infinite negative => if negative then "-inf" else "inf"
  | .finite negative d =>
    let scale := Nat.pow 10 places
    (if negative then "-" else "") ++ placed places (roundHalfEven (d.num * scale) d.den)

end Gauge
