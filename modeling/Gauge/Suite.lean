import Gauge.Method

/-!
# Suites

A suite runs its methods one after another under a deadline of its own.  A worker runs the methods;
a controller takes their outcomes as they arrive.  When the deadline passes, the controller cancels
the method that is running, waits a grace period for its outcome, and reports all others as timed
out.

## Main definitions

* `Suite κ` — named methods under one deadline.
* `Ending` — how the wait of the controller ended.
* `Suite.outcomes` — one outcome per method, from what was received and how the wait ended.
* `Suite.execute` — runs a suite.
* `SuiteOutcome`, `SuiteReport` — what comes out of it.
-/

namespace Gauge

/-- Methods under one deadline. -/
structure Suite (κ : Type) where
  name : String
  methods : List (Method κ) := []
  registry : Registry κ
  timeout : Duration := .ofSecs 600
  grace : Duration := defaultGrace

/-- How the controller's wait for outcomes ended. -/
inductive Ending where
  /-- every method had answered -/
  | complete
  /-- the worker was gone before all methods had answered -/
  | workerGone
  /-- the deadline passed; one more outcome may have arrived in the grace period -/
  | deadline (late : Option MethodOutcome)

/-- What comes out of a suite. -/
structure SuiteOutcome where
  name : String
  outcomes : List MethodOutcome
  duration : Duration
  timedOut : Bool

/-- The exported form of a suite's outcome. -/
structure SuiteReport where
  name : String
  timedOut : Bool
  durationMs : Nat
  passed : Nat
  failed : Nat
  methods : List MethodReport

namespace SuiteOutcome

def passedCount (o : SuiteOutcome) : Nat := o.outcomes.countP (·.isSuccess)

def failedCount (o : SuiteOutcome) : Nat := o.outcomes.length - o.passedCount

def isSuccess (o : SuiteOutcome) : Bool := o.outcomes.all (·.isSuccess)

/-- The first outcome of a name. -/
def find? (o : SuiteOutcome) (name : String) : Option MethodOutcome :=
  o.outcomes.find? fun m => m.name = name

def report (o : SuiteOutcome) : SuiteReport where
  name := o.name
  timedOut := o.timedOut
  durationMs := min o.duration.millis (UInt64.size - 1)
  passed := o.passedCount
  failed := o.failedCount
  methods := o.outcomes.map (·.report)

end SuiteOutcome

/-- An outcome that arrived in the grace period: a method that the deadline cancelled is reported as
timed out, and any other outcome stays as it is. -/
def MethodOutcome.relabelled (o : MethodOutcome) (limit : Duration) : MethodOutcome :=
  if o.status = .cancelled then
    { o with
      status := .timedOut .suite
      message := some (Failure.timeout .suite limit).message }
  else o

namespace Suite

variable {κ : Type}

/-- One outcome per method, in order: those received, then what the ending says of the others.  The
names are those of the methods that have not answered. -/
def fillIn (limit : Duration) (ending : Ending) (waiting : List String) : List MethodOutcome :=
  match ending, waiting with
  | .complete, _ => []
  | .workerGone, names => names.map .withoutWorker
  | .deadline _, [] => []
  | .deadline late, current :: rest =>
    (late.getD (.suiteTimeout current limit)).relabelled limit ::
      rest.map fun name => .suiteTimeout name limit

def outcomes (s : Suite κ) (received : List MethodOutcome) (ending : Ending) :
    List MethodOutcome :=
  received ++ fillIn s.timeout ending ((s.methods.map (·.name)).drop received.length)

variable [Device κ]

/-- The worker runs methods until the suite is cancelled.  An outcome that arrives after the deadline
is the last one that the controller may still take. -/
def work (s : Suite κ) (token : Token) (deadline : Nat) :
    List (Method κ) → Act (Event κ) (List MethodOutcome × Ending)
  | [] => return ([], .complete)
  | m :: ms => do
    if (← get).tokens.isCancelled token then return ([], .deadline none)
    let child ← World.newChild token
    let alarm : Alarm := { due := deadline, token := child, scope := .suite }
    modify fun w => w.setAlarm alarm
    let result ← TimeBound.ending (m.execute s.registry child)
    let inTime := (← get).clock < deadline
    if inTime then modify fun w => w.clearAlarm alarm
    match result with
    | .ok outcome =>
      if inTime then
        let (outcomes, ending) ← work s token deadline ms
        return (outcome :: outcomes, ending)
      else return ([], .deadline (some outcome))
    | .error .abandoned => return ([], .deadline none)
    | .error _ => return ([], if inTime then .workerGone else .deadline none)

/-- Runs a suite under its deadline. -/
def execute (s : Suite κ) : Act (Event κ) SuiteOutcome := do
  let began := (← get).clock
  let deadline := began + s.timeout.nanos
  let token ← World.newToken
  let alarm : Alarm := { due := deadline, token := token, scope := .suite }
  modify fun w =>
    { w.setAlarm alarm with horizon := some (deadline + s.grace.nanos) }
  let ended ← TimeBound.ending (work s token deadline s.methods)
  modify fun w => { w.clearAlarm alarm with horizon := none }
  let (received, ending) := match ended with
    | .ok answer => answer
    | .error _ => ([], .deadline none)
  return { name := s.name
           outcomes := s.outcomes received ending
           duration := .ofNanos ((← get).clock - began)
           timedOut := match ending with
             | .deadline _ => true
             | _ => false }

end Suite

end Gauge
