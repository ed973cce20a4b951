import Gauge.Stats.Moments

/-!
# Running accumulators

Moments of a series that arrives one value at a time.  The accumulator keeps the mean and the sum
of squared distances from it, and updates both without looking back, so a convergence check during
a run costs the same after a million samples as after two.

## Main definitions

* `Running R` — the accumulator.
* `Running.push`, `Running.pushAll` — one more value, or several.
* `Running.moments?` — what the accumulator knows of the series so far.
-/

namespace Gauge

/-- Moments under construction: `squares` is the sum of squared distances from `mean`. -/
structure Running (R : Type) where
  count : Nat
  mean : R
  squares : R
  min : Int64
  max : Int64

namespace Running

variable {R : Type} [Scalar R]

def empty : Running R where
  count := 0
  mean := Scalar.ofInt 0
  squares := Scalar.ofInt 0
  min := Int64.maxValue
  max := Int64.minValue

instance : Inhabited (Running R) := ⟨empty⟩

/-- One more value: the mean moves by the value's distance over the new count, and the squares grow
by the product of the distances before and after that move. -/
def push (s : Running R) (v : Int64) : Running R :=
  let x : R := Scalar.ofValue v
  let distance := x - s.mean
  let mean := s.mean + distance / Scalar.ofCount (s.count + 1)
  { count := s.count + 1
    mean := mean
    squares := s.squares + distance * (x - mean)
    min := Min.min s.min v
    max := Max.max s.max v }

def pushAll (s : Running R) (vs : List Int64) : Running R := vs.foldl push s

def ofSeries (vs : List Int64) : Running R := empty.pushAll vs

/-- The sample variance so far: zero for fewer than two values. -/
def variance (s : Running R) : R :=
  if s.count < 2 then Scalar.ofInt 0 else s.squares / Scalar.ofCount (s.count - 1)

/-- The moments so far, once there is a value. -/
def moments? (s : Running R) : Option (Moments R) :=
  if s.count = 0 then none
  else some { count := s.count, mean := s.mean, variance := s.variance, min := s.min, max := s.max }

/-! ## Steps -/

@[simp] theorem pushAll_nil (s : Running R) : s.pushAll [] = s := rfl

@[simp] theorem pushAll_cons (s : Running R) (v : Int64) (vs : List Int64) :
    s.pushAll (v :: vs) = (s.push v).pushAll vs := rfl

theorem pushAll_append (s : Running R) (vs ws : List Int64) :
    s.pushAll (vs ++ ws) = (s.pushAll vs).pushAll ws :=
  List.foldl_append

@[simp] theorem count_push (s : Running R) (v : Int64) : (s.push v).count = s.count + 1 := rfl

end Running

end Gauge
