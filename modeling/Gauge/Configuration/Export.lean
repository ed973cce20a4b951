import Gauge.Configuration
import Gauge.Json.Basic

/-!
# The serialized form of a configuration

A configuration is written as an object with one member per parameter, the deadline in whole
milliseconds.  It is read from such an object, or from the list of its members' values.

## Main definitions

* `Json.nat?`, `Json.value?`, `Json.real?`, `Json.table?` — what can be read from a value.
* `Configuration.toJson`, `Configuration.ofJson?` — writing and reading.
-/

namespace Gauge

namespace Json

/-- A count: a 64-bit word. -/
def nat? : Json → Option Nat
  | int n => if 0 ≤ n ∧ n < UInt64.size then some n.toNat else none
  | number n => n.toNat?
  | _ => none

/-- A signed 64-bit value. -/
def value? : Json → Option Int64
  | int n =>
    if Int64.minValue.toInt ≤ n ∧ n ≤ Int64.maxValue.toInt then some (Int64.ofInt n) else none
  | number n => n.toInt?
  | _ => none

/-- A float, also written as a whole number. -/
def real? : Json → Option Float
  | int n => some (Float.ofInt n)
  | float x => some x
  | number n => n.toFloat?
  | _ => none

def text? : Json → Option String
  | string s => some s
  | _ => none

/-- A table; of members with one name the last counts. -/
def table? {α : Type} (f : Json → Option α) : Json → Option (Named α)
  | object members =>
    (members.mapM fun (e : String × Json) => (f e.2).map (e.1, ·)).map Named.ofList
  | _ => none

def nameSet? : Json → Option NameSet
  | array items => (items.mapM text?).map NameSet.ofNames
  | _ => none

/-- The value of a member that occurs exactly once. -/
def member? (members : List (String × Json)) (name : String) : Option Json :=
  match members.filter fun e => e.1 = name with
  | [e] => some e.2
  | _ => none

end Json

namespace Duration

/-- The milliseconds of a span as a word; a longer span counts as the largest word. -/
def wholeMillis (d : Duration) : Nat := min d.millis (UInt64.size - 1)

end Duration

namespace Configuration

/-- The names of the parameters, in the order they are written. -/
def memberNames : List String :=
  ["warmup_executions", "execution_times", "repetitions", "min_early_stop_executions",
    "relative_std_dev_thresholds", "assertion_ceilings", "user_metrics", "timeout"]

/-- The values of the parameters, in the order they are written. -/
def memberValues (c : Configuration) : List Json :=
  [ .int c.warmup, .int c.executions, .int c.repetitions, .int c.minEarlyStop,
    .object (c.thresholds.entries.map fun e => (e.1, .float e.2)),
    .object (c.ceilings.entries.map fun e => (e.1, .int e.2.toInt)),
    .array (c.userMetrics.names.map .string),
    .int c.timeout.wholeMillis ]

def toJson (c : Configuration) : Json := .object (memberNames.zip c.memberValues)

/-- A configuration from the values of its parameters. -/
def ofValues? : List Json → Option Configuration
  | [warmup, executions, repetitions, minEarlyStop, thresholds, ceilings, userMetrics, timeout] => do
    return { warmup := ← warmup.nat?
             executions := ← executions.nat?
             repetitions := ← repetitions.nat?
             minEarlyStop := ← minEarlyStop.nat?
             thresholds := ← thresholds.table? Json.real?
             ceilings := ← ceilings.table? Json.value?
             userMetrics := ← userMetrics.nameSet?
             timeout := .ofMillis (UInt64.ofNat (← timeout.nat?)) }
  | _ => none

/-- A configuration from a value.  Every parameter must be there once; other members are ignored. -/
def ofJson? : Json → Option Configuration
  | .object members => (memberNames.mapM (Json.member? members)).bind ofValues?
  | .array items => ofValues? items
  | _ => none

/-- The configuration that a text holds. -/
def parse? (text : String) : Option Configuration := (Json.parse? text).bind ofJson?

end Configuration

end Gauge
