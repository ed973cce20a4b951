/-!
# Sets of code points

Character classes of text are sets of code points, given as a table of ranges.

## Main definitions

* `CodePoints` — a table of ranges, ends included.
* `CodePoints.contains` — whether a character lies in one of them.
-/

namespace Gauge

/-- A set of code points as a table of ranges, both ends included. -/
structure CodePoints where
  ranges : Array (Nat × Nat)

def CodePoints.contains (s : CodePoints) (c : Char) : Bool :=
  s.ranges.any fun r => r.1 ≤ c.toNat && c.toNat ≤ r.2

end Gauge
