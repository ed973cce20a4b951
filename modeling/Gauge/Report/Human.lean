import Gauge.Display
import Gauge.Suite

/-!
# Reports for people

A report has a title, a paragraph per method with a line per metric, and a last line that counts.

## Main definitions

* `MethodStatus.icon`, `MethodStatus.label` — how a status is shown.
* `SuiteReport.human` — the text of a report.
-/

namespace Gauge

namespace MethodStatus

def icon : MethodStatus → String
  | passed => "✓"
  | failed => "✗"
  | assertionFailed => "✗"
  | timedOut _ => "⏱"
  | cancelled => "⊘"
  | misconfigured => "⚠"

def label : MethodStatus → String
  | passed => "passed"
  | failed => "failed"
  | assertionFailed => "assertion failed"
  | timedOut .method => "method timeout"
  | timedOut .suite => "suite timeout"
  | cancelled => "cancelled"
  | misconfigured => "misconfigured"

end MethodStatus

def padRight (width : Nat) (text : String) : String :=
  text ++ String.ofList (List.replicate (width - text.length) ' ')

/-- The line under the title. -/
def titleRule : String := String.ofList (List.replicate 60 '=')

/-- The line above the counts. -/
def countRule : String := String.ofList (List.replicate 60 '-')

/-- The line of a metric, its name padded to a width. -/
def metricLine (width : Nat) (name : String) (s : Summary) : String :=
  let shown := showMetric name
  s!"      {padRight width name}  mean: {shown s.mean}  stddev: {shown s.stdDev}" ++
    s!"  min: {shown (Float.ofInt s.min.toInt)}  max: {shown (Float.ofInt s.max.toInt)}" ++
    s!"  n: {s.count}\n"

/-- The lines of a run.  Names are padded to the size in bytes of the longest one. -/
def RunReport.human (r : RunReport) (durationMs : Nat) : String :=
  let stop := if r.earlyStopped then ", stopped early" else ""
  let width := (r.metrics.names.map String.utf8ByteSize).foldl max 0
  s!"      executions: {r.executions}{stop}  duration: {durationMs} ms\n" ++
    String.join (r.metrics.entries.map fun e => metricLine width e.1 e.2)

def MethodReport.human (m : MethodReport) : String :=
  let run := match m.run with
    | some r => r.human m.durationMs
    | none => ""
  let message := match m.message with
    | some text => s!"      error: {text}\n"
    | none => ""
  s!"  {m.status.icon} {m.name} ({m.status.label})\n" ++ run ++ message ++ "\n"

def SuiteReport.human (r : SuiteReport) : String :=
  let deadline := if r.timedOut then " (suite deadline exceeded)" else ""
  s!"\nrepmeter Results: {r.name}\n{titleRule}\n\n" ++
    String.join (r.methods.map MethodReport.human) ++
    s!"{countRule}\n{r.passed} passed, {r.failed} failed in {r.durationMs} ms{deadline}\n"

end Gauge
