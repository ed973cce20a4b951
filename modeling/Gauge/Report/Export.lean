import Gauge.Json.Basic
import Gauge.Report.Format
import Gauge.Report.Human

/-!
# Reports as JSON

The exported form of a report leaves out the message of a method that has none, and the run of a
method that sealed nothing.

## Main definitions

* `SuiteReport.toJson` — a report as a value.
* `SuiteReport.render` — a report in either format.
-/

namespace Gauge

def RunStatus.text : RunStatus → String
  | .open => "open"
  | .complete => "complete"
  | .failed => "failed"

def Summary.toJson (s : Summary) : Json :=
  .object [("sample_count", .int s.count), ("mean", .float s.mean), ("std_dev", .float s.stdDev),
    ("min", .int s.min.toInt), ("max", .int s.max.toInt)]

def RunReport.toJson (r : RunReport) : Json :=
  .object [("status", .string r.status.text), ("real_executions", .int r.executions),
    ("early_stopped", .bool r.earlyStopped),
    ("metrics", .object (r.metrics.entries.map fun e => (e.1, e.2.toJson)))]

/-- A status as a value: a word, or an object for the statuses that name a scope. -/
def MethodStatus.toJson : MethodStatus → Json
  | passed => .string "passed"
  | failed => .string "failed"
  | assertionFailed => .string "assertion-failed"
  | timedOut scope => .object [("timed-out", .string scope.text)]
  | cancelled => .string "cancelled"
  | misconfigured => .string "misconfigured"

def MethodReport.toJson (m : MethodReport) : Json :=
  let message := match m.message with
    | some text => [("message", Json.string text)]
    | none => []
  let run := match m.run with
    | some r => [("run", r.toJson)]
    | none => []
  .object ([("name", .string m.name), ("status", m.status.toJson)] ++ message ++
    [("duration_ms", .int m.durationMs)] ++ run)

def SuiteReport.toJson (r : SuiteReport) : Json :=
  .object [("name", .string r.name), ("timed_out", .bool r.timedOut),
    ("duration_ms", .int r.durationMs), ("passed", .int r.passed), ("failed", .int r.failed),
    ("methods", .array (r.methods.map MethodReport.toJson))]

def SuiteReport.render (r : SuiteReport) : OutputFormat → String
  | .human => r.human
  | .json => r.toJson.pretty ++ "\n"

end Gauge
