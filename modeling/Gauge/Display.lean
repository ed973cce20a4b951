import Gauge.Decimal.Fixed

/-!
# Showing metric values

The name of a metric tells its unit: names ending in `.time` or `.cpu` count nanoseconds, names
ending in `.alloc` or `.rss` count bytes, and all others are plain numbers.

## Main definitions

* `Quantity.ofName` — the unit of a metric.
* `showNanos`, `showBytes` — a value in the unit that fits its size.
* `showMetric` — a value of a named metric.
-/

namespace Gauge

/-- What the values of a metric count. -/
inductive Quantity where
  | nanoseconds
  | bytes
  | plain
  deriving DecidableEq

/-- The unit that the name of a metric announces. -/
def Quantity.ofName (name : String) : Quantity :=
  if name.endsWith ".time" || name.endsWith ".cpu" then .nanoseconds
  else if name.endsWith ".alloc" || name.endsWith ".rss" then .bytes
  else .plain

/-- Nanoseconds in the unit that fits their size.  A value that is not a number is below no limit
and falls to the largest unit. -/
def showNanos (x : Float) : String :=
  if x < 1e3 then fixed 2 x ++ " ns"
  else if x < 1e6 then fixed 2 (x / 1e3) ++ " us"
  else if x < 1e9 then fixed 2 (x / 1e6) ++ " ms"
  else fixed 2 (x / 1e9) ++ " s"

/-- Bytes in the unit that fits their size. -/
def showBytes (x : Float) : String :=
  if x < 1024.0 then fixed 0 x ++ " B"
  else if x < 1048576.0 then fixed 2 (x / 1024.0) ++ " KiB"
  else fixed 2 (x / 1048576.0) ++ " MiB"

def showMetric (name : String) (x : Float) : String :=
  match Quantity.ofName name with
  | .nanoseconds => showNanos x
  | .bytes => showBytes x
  | .plain => fixed 2 x

end Gauge
