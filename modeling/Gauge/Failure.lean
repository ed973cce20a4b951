import Gauge.Decimal.Notation
import Gauge.Duration
import Gauge.Store.Sample

/-!
# Failures

Why a measurement did not come to its end, as causes with one text each.

## Main definitions

* `Scope` — what a deadline covers.
* `RegistryFault`, `Misconfiguration` — what is inconsistent in the setup of a run.
* `Failure` — how a run fails; `Failure.message` is its text.
* `Panic` — what escapes from code that breaks off.
* `HookError` — the error a hook of a workload answers with; `HookError.failure` is what the run
  makes of it.
-/

namespace Gauge

/-- What a deadline covers: one method run, or a whole suite. -/
inductive Scope where
  | method
  | suite
  deriving DecidableEq

def Scope.text : Scope → String
  | method => "method"
  | suite => "suite"

/-- Causes joined from the outermost to the innermost. -/
def joinCauses (chain : List String) : String := ": ".intercalate chain

/-- What can go wrong when collectors are looked up and created. -/
inductive RegistryFault where
  | duplicate (id : String)
  | unknown (id : String)
  /-- the constructor failed with a chain of causes, outermost first -/
  | instantiation (id : String) (chain : List String)
  | unknownPreset (name : String)
  deriving DecidableEq

def RegistryFault.message : RegistryFault → String
  | duplicate id => s!"Collector already registered: {id}"
  | unknown id => s!"Unknown collector: {id}"
  | instantiation id chain => s!"Collector {id} could not be created: {joinCauses chain}"
  | unknownPreset name => s!"Unknown collector preset: {name}"

/-- What is inconsistent in a configuration, a set of collectors or the order of calls. -/
inductive Misconfiguration where
  | noRepetitions
  | noTime
  | badThreshold (metric : String) (threshold : Float)
  | duplicateCollector (name : String)
  /-- a declared user metric has the name of a collector -/
  | metricTaken (metric : String)
  | unknownThreshold (metric : String)
  /-- collectors are started before their order is known -/
  | unprepared
  /-- an iteration is begun inside another one -/
  | alreadyCollecting
  /-- an iteration is ended that was not begun -/
  | notCollecting
  /-- a user value is given under the name of a collector -/
  | nameTaken (name : String)
  | registry (fault : RegistryFault)
  /-- a throughput plan does not start or does not grow -/
  | stillPlan
  | invertedPlan (start max : Nat)
  /-- a cause given by its text alone -/
  | other (text : String)

def Misconfiguration.message : Misconfiguration → String
  | noRepetitions => "repetitions must be at least 1"
  | noTime => "timeout must be greater than zero"
  | badThreshold metric threshold =>
    s!"threshold for {metric} must be a non-negative number, got {showFloat threshold}"
  | duplicateCollector name => s!"duplicate collector name: {name}"
  | metricTaken metric => s!"user metric {metric} collides with a collector of the same name"
  | unknownThreshold metric => s!"threshold references unknown metric {metric}"
  | unprepared => "before_run must be called before collecting"
  | alreadyCollecting => "collection already started for this iteration"
  | notCollecting => "stop_collection without a matching start"
  | nameTaken name => s!"{name} is already used by a collector"
  | registry fault => fault.message
  | stillPlan => "throughput start and step must be positive"
  | invertedPlan start max => s!"throughput start {start} exceeds max {max}"
  | other text => text

/-- How a run fails. -/
inductive Failure where
  /-- the workload failed with a chain of causes, outermost first -/
  | workload (chain : List String)
  /-- the deadline of a scope passed -/
  | timeout (scope : Scope) (limit : Duration)
  /-- the mean of a metric reached its ceiling -/
  | assertion (metric : String) (observed : Float) (ceiling : Int64)
  | misconfigured (cause : Misconfiguration)
  /-- a checkpoint found the run cancelled -/
  | cancelled
  /-- aggregates were asked for before the store was sealed -/
  | notFinalized
  /-- a value was written after the store was sealed -/
  | sealed
  | store (fault : StoreFault)

namespace Failure

def message : Failure → String
  | workload chain => s!"Workload failed: {joinCauses chain}"
  | timeout scope limit => s!"Test timed out because of {scope.text} timeout ({limit.text})"
  | assertion metric observed ceiling =>
    s!"Collector {metric} has value {showFloat observed}, but it should be below {ceiling.toInt}"
  | misconfigured cause => s!"Configuration error: {cause.message}"
  | cancelled => "Run was cancelled"
  | notFinalized => "Sample store is not finalized"
  | sealed => "Sample store is sealed; no further values can be written"
  | store fault => fault.message

/-- Whether the failure is the answer of a checkpoint. -/
def isCancelled : Failure → Bool
  | cancelled => true
  | _ => false

end Failure

/-- What escapes from code that breaks off: a text, or something that is none. -/
inductive Panic where
  | text (message : String)
  | notText
  deriving DecidableEq

def Panic.message : Panic → String
  | text message => message
  | notText => "Unknown panic"

/-- The error that a hook answers with. -/
inductive HookError where
  /-- a chain of causes, outermost first -/
  | plain (chain : List String)
  /-- a failure of the harness that passed through the hook, in contexts added on the way -/
  | carried (failure : Failure) (contexts : List String)

/-- What a run makes of the error of a hook: a failure that passed through comes out unchanged, and
any other error keeps its chain. -/
def HookError.failure : HookError → Failure
  | plain chain => .workload chain
  | carried failure _ => failure

/-- What a run makes of a hook that breaks off. -/
def Panic.inHook (p : Panic) : Failure := .workload [s!"panicked: {p.message}"]

/-- What a deadline makes of work that breaks off. -/
def Panic.inWorker (p : Panic) : Failure := .workload [s!"worker panicked: {p.message}"]

end Gauge
