import Gauge.Decimal.Dyadic
import Gauge.Stats.Running

/-!
# Summaries

The aggregates of a metric as they are reported: moments in binary floating point, with the
standard deviation in place of the variance.

## Main definitions

* `Summary` — count, mean, standard deviation, smallest and largest value.
* `relativeStdDev` — the standard deviation in units of the mean, the measure of convergence.
* `Summary.ofSeries?` and `Running.summary?` — the two ways to a summary.
-/

namespace Gauge

/-- The standard deviation in units of the mean; undefined for a zero mean, and an undefined value
is at or below no threshold. -/
def relativeStdDev (mean stdDev : Float) : Float :=
  if mean == 0.0 then notANumber else stdDev / mean

/-- Aggregates of one metric over the samples of a run. -/
structure Summary where
  count : Nat
  mean : Float
  stdDev : Float
  min : Int64
  max : Int64

namespace Summary

/-- The standard deviation of the summary in units of its mean. -/
def relativeStdDev (s : Summary) : Float := Gauge.relativeStdDev s.mean s.stdDev

/-- Moments with the standard deviation in place of the variance. -/
def ofMoments (m : Moments Float) : Summary where
  count := m.count
  mean := m.mean
  stdDev := m.variance.sqrt
  min := m.min
  max := m.max

/-- The summary of a series, by a scan over all of it. -/
def ofSeries? (vs : List Int64) : Option Summary := (Moments.ofSeries? vs).map ofMoments

end Summary

/-- The accumulator that live metrics are followed with. -/
abbrev Tally := Running Float

namespace Running

/-- The mean so far, undefined before the first value. -/
def meanOrNaN (s : Tally) : Float := if s.count = 0 then notANumber else s.mean

/-- The standard deviation so far: undefined before the first value, zero for a single one. -/
def stdDev (s : Tally) : Float := if s.count = 0 then notANumber else s.variance.sqrt

/-- The relative standard deviation so far. -/
def relativeStdDev (s : Tally) : Float := Gauge.relativeStdDev s.meanOrNaN s.stdDev

/-- The summary so far, once there is a value. -/
def summary? (s : Tally) : Option Summary := s.moments?.map Summary.ofMoments

end Running

end Gauge
