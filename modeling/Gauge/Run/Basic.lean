import Gauge.Configuration
import Gauge.Registry
import Gauge.Store.Writer
import Gauge.Workload

/-!
# Runs

A run owns its configuration, its collectors and the store of its samples.

## Main definitions

* `Run κ` — the state of a run.
* `Run.create`, `Run.ofRegistry` — a new run, if its names are consistent.
* `Run.isSpreadBelow` — the test behind stopping early.
* `Session κ`, `Step κ` — a run together with its workload and the world, and a step of all three.
* `RunResult`, `RunReport` — what is left of a run whose store is sealed.
-/

namespace Gauge

/-- How far a run has come. -/
inductive RunStatus where
  | open
  | complete
  /-- sealed after a failure; the samples of the finished iterations remain -/
  | failed
  deriving DecidableEq

/-- The store of a run. -/
inductive RunStore where
  | writing (w : Writer)
  | sealed (r : Reader)
  /-- it could not be sealed, and nothing can be recovered -/
  | lost

/-- The store after sealing; sealing twice changes nothing. -/
def RunStore.toReader : RunStore → Except StoreFault Reader
  | writing w => w.sealed
  | sealed r => .ok r
  | lost => .error .disposed

/-- A measurement run. -/
structure Run (κ : Type) where
  config : Configuration
  /-- in declaration order -/
  collectors : List (Collector κ)
  mode : CollectionMode := .fresh
  /-- the positions of the collectors in start order, once it is known -/
  order : Option (List Nat) := none
  /-- whether an iteration is open -/
  collecting : Bool := false
  executions : Nat := 0
  earlyStopped : Bool := false
  status : RunStatus := .open
  store : RunStore

/-- The first name of a list that stands in it twice or was seen before. -/
def firstRepeated (seen : List String) : List String → Option String
  | [] => none
  | n :: ns => if n ∈ seen then some n else firstRepeated (n :: seen) ns

namespace Run

variable {κ : Type}

/-! ## New runs -/

/-- Checks that collectors have different names, that no user metric has the name of a collector,
and that every threshold is about a metric of the run. -/
def checkNames (config : Configuration) (names : List String) : Except Misconfiguration Unit :=
  match firstRepeated [] names with
  | some name => .error (.duplicateCollector name)
  | none =>
    match config.userMetrics.names.find? fun m => m ∈ names with
    | some metric => .error (.metricTaken metric)
    | none =>
      match config.thresholds.names.find? fun m => m ∉ names && !config.userMetrics.contains m with
      | some metric => .error (.unknownThreshold metric)
      | none => .ok ()

/-- A new run with the given collectors. -/
def create (config : Configuration) (collectors : List (Collector κ)) :
    Except Misconfiguration (Run κ) := do
  config.validate
  checkNames config (collectors.map (·.name))
  return { config := config
           collectors := collectors
           store := .writing (.ofPlanned config.executions) }

/-- A new run with fresh collectors from a registry; those that cannot be made are left out. -/
def ofRegistry (config : Configuration) (registry : Registry κ) (set : CollectorSet) :
    Except Misconfiguration (Run κ) :=
  match registry.instantiate set with
  | .error fault => .error (.registry fault)
  | .ok collectors => create config collectors

/-! ## Questions -/

/-- The names of the collectors in declaration order. -/
def names (r : Run κ) : List String := r.collectors.map (·.name)

/-- The names of the collectors in start order, once it is known. -/
def orderedNames? (r : Run κ) : Option (List String) :=
  r.order.map fun order => order.filterMap fun i => r.collectors[i]?.map (·.name)

/-- Whether the store takes no more values. -/
def isFinalized (r : Run κ) : Bool :=
  match r.store with
  | .writing _ => false
  | _ => true

/-- Where the samples are kept, unless they are lost. -/
def storeMode? (r : Run κ) : Option StoreMode :=
  match r.store with
  | .writing w => some w.mode
  | .sealed reader => some reader.mode
  | .lost => none

/-- The sealed store. -/
def reader (r : Run κ) : Except Failure Reader :=
  match r.store with
  | .sealed reader => .ok reader
  | .writing _ => .error .notFinalized
  | .lost => .error (.store .disposed)

/-- The relative standard deviation of a metric, if it has values. -/
def spread? (r : Run κ) (metric : String) : Option Float :=
  match r.store with
  | .writing w => (w.running? metric).map Running.relativeStdDev
  | .sealed reader => (reader.summary? metric).map Summary.relativeStdDev
  | .lost => none

/-- Whether each listed metric has values whose relative standard deviation is at most its
threshold; one that is not a number is at most nothing. -/
def isSpreadBelow (r : Run κ) (thresholds : Named Float) : Bool :=
  thresholds.entries.all fun (metric, threshold) =>
    match r.spread? metric with
    | some spread => spread ≤ threshold
    | none => false

/-- Whether the run stops after the given iteration although more are planned. -/
def converged (r : Run κ) (iteration : Nat) : Bool :=
  r.config.minEarlyStop ≤ iteration && r.config.earlyStopEnabled &&
    r.isSpreadBelow r.config.thresholds

end Run

/-! ## Sealed runs -/

/-- The first ceiling in name order that the mean of its metric reached. -/
def Reader.checkCeilings (r : Reader) (ceilings : Named Int64) : Except Failure Unit :=
  match ceilings.entries.findSome? fun (metric, ceiling) =>
    (r.summary? metric).bind fun s =>
      if Float.ofInt ceiling.toInt ≤ s.mean then
        some (Failure.assertion metric s.mean ceiling)
      else none with
  | some failure => .error failure
  | none => .ok ()

/-- A result of the store as a result of the run. -/
def ofStore {α : Type} : Except StoreFault α → Except Failure α
  | .ok a => .ok a
  | .error fault => .error (.store fault)

/-- The aggregates of a run. -/
structure RunReport where
  status : RunStatus
  executions : Nat
  earlyStopped : Bool
  metrics : Named Summary

/-- What is left of a run whose store is sealed. -/
structure RunResult where
  status : RunStatus
  executions : Nat
  earlyStopped : Bool
  reader : Reader

def RunResult.report (r : RunResult) : RunReport where
  status := r.status
  executions := r.executions
  earlyStopped := r.earlyStopped
  metrics := r.reader.aggregates

/-- The result of a run whose store is sealed. -/
def Run.result {κ : Type} (r : Run κ) : Except Failure RunResult :=
  r.reader.map fun reader =>
    { status := r.status
      executions := r.executions
      earlyStopped := r.earlyStopped
      reader := reader }

/-! ## Steps -/

/-- A run with its workload, in the world. -/
structure Session (κ : Type) where
  world : World (Event κ)
  work : Workload
  run : Run κ

/-- A step of a session. -/
abbrev Step (κ : Type) := EStateM Halt (Session κ)

/-- A step of a session that is opened for it, and the session after the step. -/
def Session.during {κ α : Type} (run : Run κ) (work : Workload) (x : Step κ α) :
    Act (Event κ) (α × Run κ × Workload) := fun world =>
  match x { world := world, work := work, run := run } with
  | .ok a s => .ok (a, s.run, s.work) s.world
  | .error h s => .error h s.world

namespace Step

variable {κ α : Type}

/-- A step in the world of a session. -/
def inWorld (x : Act (Event κ) α) : Step κ α := fun s =>
  match x s.world with
  | .ok a w => .ok a { s with world := w }
  | .error h w => .error h { s with world := w }

def modifyRun (f : Run κ → Run κ) : Step κ Unit := modify fun s => { s with run := f s.run }

def theRun : Step κ (Run κ) := return (← get).run

/-- What breaks off in a hook is a failure of the workload. -/
def guarded (x : Step κ α) : Step κ α := fun s =>
  match x s with
  | .error (.panic p) s => .error (.failure p.inHook) s
  | r => r

/-- Calls the hook of a stage. -/
def callHook (token : Token) (stage : Stage) : Step κ Unit := do
  match (← get).work.next? stage with
  | none => pure ()
  | some (action, work) =>
    modify fun s => { s with work := work }
    inWorld (World.log (.hook stage))
    guarded (inWorld do
      World.tick
      action.perform token)

end Step

end Gauge
