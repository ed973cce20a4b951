/-!
# Moments of a series of integers

Count, mean, variance and extremes of a series, computed in an arbitrary arithmetic by a scan over
the whole series.  The measurements use binary floating point; the same definitions read over the
rationals say what the numbers mean.

## Main definitions

* `Scalar R` — the arithmetic a moment is computed in.
* `Moments R` — count, mean, variance, smallest and largest value.
* `Moments.ofSeries?` — the moments of a series, in two passes.
-/

namespace Gauge

/-- The arithmetic that statistics are computed in: the four operations and the integers. -/
class Scalar (R : Type) extends Add R, Sub R, Mul R, Div R where
  ofInt : Int → R

instance : Scalar Float where
  ofInt := Float.ofInt

instance : Scalar Rat where
  ofInt := Rat.ofInt

/-- The value of a metric as a number of the arithmetic. -/
def Scalar.ofValue {R : Type} [Scalar R] (v : Int64) : R := Scalar.ofInt v.toInt

/-- A count as a number of the arithmetic. -/
def Scalar.ofCount {R : Type} [Scalar R] (n : Nat) : R := Scalar.ofInt n

/-- Count, mean, Bessel-corrected variance and extremes of a non-empty series. -/
structure Moments (R : Type) where
  count : Nat
  mean : R
  variance : R
  min : Int64
  max : Int64

namespace Moments

variable {R : Type} [Scalar R]

/-- The sum of a list of numbers, from the left. -/
def sum (xs : List R) : R := xs.foldl (· + ·) (Scalar.ofInt 0)

def meanOf (vs : List Int64) : R :=
  sum (vs.map Scalar.ofValue) / Scalar.ofCount vs.length

/-- The sum of the squared distances of a series from `centre`. -/
def squaresAbout (centre : R) (vs : List Int64) : R :=
  sum (vs.map fun v => (Scalar.ofValue v - centre) * (Scalar.ofValue v - centre))

/-- The sample variance about `centre`: zero for fewer than two values. -/
def varianceAbout (centre : R) (vs : List Int64) : R :=
  if vs.length < 2 then Scalar.ofInt 0
  else squaresAbout centre vs / Scalar.ofCount (vs.length - 1)

/-- The moments of a series, the mean first and then the variance about it; an empty series has
none, as it has no smallest value. -/
def ofSeries? : List Int64 → Option (Moments R)
  | [] => none
  | v :: vs =>
    let mean := meanOf (v :: vs)
    some
      { count := vs.length + 1
        mean := mean
        variance := varianceAbout mean (v :: vs)
        min := vs.foldl Min.min v
        max := vs.foldl Max.max v }

end Moments

end Gauge
