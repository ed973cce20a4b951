import Gauge.Decimal.Shortest

/-!
# Writing floats with the digits they need

A notation decides where the point goes and when an exponent is written; the digits are the fewest
that read back.

## Main definitions

* `Notation` — the decisions of one format.
* `Notation.write` — a finite float in that notation.
* `Notation.plain` — the notation of error messages: always positional, whole numbers without point.
-/

namespace Gauge

/-- The decisions of a format for floats.  The position of the point is counted from the first digit:
`0.5` has position zero and `12.5` position two. -/
structure Notation where
  /-- whether a point position is written without an exponent -/
  positional : Int → Bool
  /-- what follows a whole number -/
  wholeSuffix : String
  /-- which of two equally near decimals is chosen -/
  tie : Tie

namespace Notation

def zeros (n : Nat) : String := String.ofList (List.replicate n '0')

/-- Sets the point of a decimal, with an exponent and its sign where the notation asks for one. -/
def layout (f : Notation) (x : Decimal) : String :=
  let digits := toString x.digits
  let point : Int := digits.length + x.exponent
  if f.positional point then
    if 0 ≤ x.exponent then digits ++ zeros x.exponent.toNat ++ f.wholeSuffix
    else if 0 < point then
      String.ofList (digits.toList.take point.toNat) ++ "." ++
        String.ofList (digits.toList.drop point.toNat)
    else "0." ++ zeros (-point).toNat ++ digits
  else
    let lead := String.ofList (digits.toList.take 1)
    let rest := String.ofList (digits.toList.drop 1)
    let sign := if 1 ≤ point then "+" else ""
    lead ++ (if rest.isEmpty then "" else "." ++ rest) ++ "e" ++ sign ++ toString (point - 1)

/-- A magnitude in the notation. -/
def magnitude (f : Notation) (d : Dyadic) : String :=
  if d.mantissa = 0 then "0" ++ f.wholeSuffix else f.layout (d.shortest f.tie)

/-- The notation of error messages: always positional, whole numbers without a point, and the upper
one of two equally near decimals. -/
def plain : Notation where
  positional _ := true
  wholeSuffix := ""
  tie := .upper

end Notation

/-- A float as error messages show it. -/
def showFloat (x : Float) : String :=
  match FloatShape.ofFloat x with
  | .notANumber => "NaN"
  | .infinite negative => if negative then "-inf" else "inf"
  | .finite negative d => (if negative then "-" else "") ++ Notation.plain.magnitude d

end Gauge
