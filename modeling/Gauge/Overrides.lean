import Gauge.Options.Basic
import Gauge.Settings

/-!
# Overrides

The parameters of a suite come in three layers: what its methods declare, the settings file over
that, and the options of the command line on top.

## Main definitions

* `Options.applyTo` — a method under the options.
* `Suite.overridden` — a suite under settings and options, with everything that was changed before a
  fault.
-/

namespace Gauge

namespace Options

/-- A method under the options, whose deadline and set of collectors are read already. -/
def applyTo {κ : Type} (o : Options) (timeout : Option Duration) (set : Option CollectorSet)
    (m : Method κ) : Method κ :=
  { m with
    collectors := set.getD m.collectors
    config := { m.config with
      warmup := o.warmup.getD m.config.warmup
      executions := o.iterations.getD m.config.executions
      repetitions := o.repetitions.getD m.config.repetitions
      minEarlyStop := o.minEarlyStop.getD m.config.minEarlyStop
      timeout := timeout.getD m.config.timeout } }

/-- The deadline of methods and the set of collectors that the options name. -/
def resolve (o : Options) : Except SettingFault (Option Duration × Option CollectorSet) := do
  let timeout ← (Settings.duration? o.timeout).mapError .duration
  let set ← (o.collectors.mapM CollectorSet.preset).mapError .collectors
  return (timeout, set)

end Options

/-- A suite under settings and options.  The deadline of the suite is set before the other options
are read. -/
def Suite.overridden {κ : Type} (suite : Suite κ) (s : Settings) (o : Options) :
    Except SettingFault Unit × Suite κ :=
  match s.applyToSuite suite with
  | (.error f, suite) => (.error f, suite)
  | (.ok (), suite) =>
    match Settings.duration? o.suiteTimeout with
    | .error f => (.error (.duration f), suite)
    | .ok timeout =>
      let suite := { suite with timeout := timeout.getD suite.timeout }
      match o.resolve with
      | .error f => (.error f, suite)
      | .ok (timeout, set) =>
        (.ok (), { suite with methods := suite.methods.map (o.applyTo timeout set) })

end Gauge
