import Gauge.Run.Loop
import Gauge.TimeBound

/-!
# Methods

A method is a named measurement: a configuration, the collectors it uses, and a factory that makes
its workload.  Running it gives an outcome that says how it ended and keeps the samples it sealed.

## Main definitions

* `Method κ` — a named measurement.
* `MethodStatus` — how a method ended.
* `MethodOutcome` — status, message and sealed data.
* `Method.execute` — runs a method under its own deadline.
-/

namespace Gauge

/-- A named measurement. -/
structure Method (κ : Type) where
  name : String
  config : Configuration
  collectors : CollectorSet := .standard
  /-- makes a fresh workload, or breaks off -/
  factory : Except Panic Workload

/-- How a method ended. -/
inductive MethodStatus where
  | passed
  | failed
  /-- a ceiling was reached -/
  | assertionFailed
  | timedOut (scope : Scope)
  | cancelled
  | misconfigured
  deriving DecidableEq

namespace MethodStatus

/-- The status that a failure leads to. -/
def ofFailure : Failure → MethodStatus
  | .timeout scope _ => timedOut scope
  | .cancelled => cancelled
  | .assertion .. => assertionFailed
  | .misconfigured _ => misconfigured
  | _ => failed

def isSuccess : MethodStatus → Bool
  | passed => true
  | _ => false

end MethodStatus

/-- The outcome of a method. -/
structure MethodOutcome where
  name : String
  status : MethodStatus
  /-- the text of the failure of a method that did not pass -/
  message : Option String
  duration : Duration
  /-- the samples that were sealed, also those of a run that failed -/
  result : Option RunResult

/-- The exported form of an outcome. -/
structure MethodReport where
  name : String
  status : MethodStatus
  message : Option String
  durationMs : Nat
  run : Option RunReport

namespace MethodOutcome

/-- The outcome of a method that ended with a failure, or without. -/
def ofEnding (name : String) (ending : Except Failure Unit) (result : Option RunResult)
    (duration : Duration) : MethodOutcome :=
  match ending with
  | .ok () =>
    { name := name, status := .passed, message := none, duration := duration, result := result }
  | .error f =>
    { name := name
      status := .ofFailure f
      message := some f.message
      duration := duration
      result := result }

/-- The outcome of a method that the deadline of its suite did not leave room for. -/
def suiteTimeout (name : String) (limit : Duration) : MethodOutcome where
  name := name
  status := .timedOut .suite
  message := some (Failure.timeout .suite limit).message
  duration := .ofNanos 0
  result := none

/-- The outcome of a method that lost its worker. -/
def withoutWorker (name : String) : MethodOutcome :=
  ofEnding name (.error (.workload ["suite worker stopped unexpectedly"])) none (.ofNanos 0)

def isSuccess (o : MethodOutcome) : Bool := o.status.isSuccess

def report (o : MethodOutcome) : MethodReport where
  name := o.name
  status := o.status
  message := o.message
  durationMs := min o.duration.millis (UInt64.size - 1)
  run := o.result.map RunResult.report

end MethodOutcome

namespace Method

variable {κ : Type} [Device κ]

/-- The deadline of a method. -/
def bound (m : Method κ) : TimeBound where
  scope := .method
  timeout := m.config.timeout
  grace := defaultGrace

/-- A run that was cancelled for the reason of its own deadline timed out. -/
def attributed (bound : TimeBound) (reason : Option Scope) :
    Except Failure Unit → Except Failure Unit
  | .error .cancelled =>
    .error (if reason = some .method then bound.timeoutFailure else .cancelled)
  | ending => ending

/-- How a method ended, and the data that are left, from what its deadline reports and the reason
that its token has by then.  A deadline that passed when the suite had cancelled the method is a
cancellation. -/
def verdict {β : Type} (bound : TimeBound) (reason : Option Scope) :
    Except Failure (Bounded (Except Failure Unit × β)) → Except Failure Unit × Option β
  | .error f => (attributed bound reason (.error f), none)
  | .ok (.finished (ending, data)) => (attributed bound reason ending, some data)
  | .ok (.timedOut late) =>
    let cause := if reason = some .suite then .cancelled else bound.timeoutFailure
    (attributed bound reason (.error cause), late.map (·.2))

/-- Runs a method with the given token: builds the run, makes the workload and executes the run
under the method's deadline. -/
def execute (m : Method κ) (registry : Registry κ) (token : Token) :
    Act (Event κ) MethodOutcome := do
  let began := (← get).clock
  match Run.ofRegistry m.config registry m.collectors with
  | .error cause =>
    return .ofEnding m.name (.error (.misconfigured cause)) none
      (.ofNanos ((← get).clock - began))
  | .ok run =>
    match m.factory with
    | .error p => throw (.panic p)
    | .ok work =>
      let answer ← m.bound.execute token (Session.during run work (settle (Run.execute token)))
      let reason := (← get).tokens.reason? token
      let (ending, data) := verdict m.bound reason answer
      let result := data.bind fun (run, _) => run.result.toOption
      return .ofEnding m.name ending result (.ofNanos ((← get).clock - began))

end Method

end Gauge
