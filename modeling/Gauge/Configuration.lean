import Gauge.Failure

/-!
# Run configurations

The parameters of one measurement run.  A run owns its configuration and never changes it.

## Main definitions

* `Configuration` — the parameters, with their defaults.
* `Configuration.validate` — the checks that need no collectors.
-/

namespace Gauge

/-- The parameters of one run. -/
structure Configuration where
  /-- iterations that are executed first and not measured -/
  warmup : Nat := 1
  /-- the largest number of measured iterations -/
  executions : Nat := 10
  /-- calls of the body inside one iteration -/
  repetitions : Nat := 1
  /-- the first iteration after which a run may stop early -/
  minEarlyStop : Nat := 10
  /-- a run stops early when each listed metric has at most this relative standard deviation -/
  thresholds : Named Float := ∅
  /-- after the run, the mean of each listed metric must be below its ceiling -/
  ceilings : Named Int64 := ∅
  /-- the names that user values will be given under -/
  userMetrics : NameSet := ∅
  /-- the deadline of the whole run -/
  timeout : Duration := .ofSecs 100

namespace Configuration

instance : Inhabited Configuration := ⟨{}⟩

def earlyStopEnabled (c : Configuration) : Bool := !c.thresholds.isEmpty

/-- A threshold is a finite number that is not negative. -/
def thresholdOk (threshold : Float) : Bool := threshold.isFinite && !(threshold < 0.0)

/-- The first entry of a table that a test refuses. -/
def firstRefused {α : Type} (t : Named α) (accept : String → α → Bool) : Option (String × α) :=
  t.entries.find? fun e => !accept e.1 e.2

/-- Checks repetitions, deadline and thresholds, in this order; of thresholds, the first bad one in
name order is reported. -/
def validate (c : Configuration) : Except Misconfiguration Unit :=
  if c.repetitions = 0 then .error .noRepetitions
  else if c.timeout.nanos = 0 then .error .noTime
  else
    match firstRefused c.thresholds fun _ t => thresholdOk t with
    | some (metric, threshold) => .error (.badThreshold metric threshold)
    | none => .ok ()

end Configuration

end Gauge
