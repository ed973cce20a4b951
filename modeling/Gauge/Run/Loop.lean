import Gauge.Run.Bracket

/-!
# The loop of a run

```text
prepare → warmup → [checkpoint → before → start → body … → stop → after] … → finalize → ceilings
```

The measured part ends after the planned number of iterations, or when the spread of the metrics is
small enough.  Every way out seals the store, so the iterations that finished before a failure stay
readable.

## Main definitions

* `Run.warmup` — iterations that are not measured.
* `Run.measure` — the measured iterations.
* `Run.finalize` — seals the store, with or without a failure.
* `Run.mainLoop` — the measured iterations, sealed if they fail.
* `Run.execute` — a whole run.
-/

namespace Gauge.Run

open Step

variable {κ : Type} [Device κ]

/-- Calls the body a number of times, with a checkpoint between two calls. -/
def repeatBody (token : Token) (first : Bool) : Nat → Step κ Unit
  | 0 => pure ()
  | n + 1 => do
    if !first then inWorld (World.checkpoint token)
    callHook token .body
    repeatBody token false n

/-- The calls of the body in one iteration. -/
def runBody (token : Token) : Step κ Unit := do
  repeatBody token true (← theRun).config.repetitions

/-- Iterations that are not measured. -/
def warmupFor (token : Token) : Nat → Step κ Unit
  | 0 => pure ()
  | n + 1 => do
    inWorld (World.checkpoint token)
    callHook token .before
    runBody token
    callHook token .after
    warmupFor token n

/-- The planned iterations that are not measured. -/
def warmup (token : Token) : Step κ Unit := do
  warmupFor token (← theRun).config.warmup

/-- One measured iteration.  A failing body gives it up. -/
def iterate (token : Token) : Step κ Unit := do
  callHook token .before
  start (← theRun).mode
  match ← settle (runBody token) with
  | .error failure =>
    abort
    fail failure
  | .ok () =>
    stop
    callHook token .after

/-- Measured iterations, the first of them with the given number, until the run converges. -/
def measureFrom (token : Token) (iteration : Nat) : Nat → Step κ Unit
  | 0 => pure ()
  | n + 1 => do
    inWorld (World.checkpoint token)
    iterate token
    if (← theRun).converged iteration then
      modifyRun fun r => { r with earlyStopped := true }
    else measureFrom token (iteration + 1) n

/-- The measured iterations. -/
def measure (token : Token) : Step κ Unit := do
  measureFrom token 1 (← theRun).config.executions

/-- Seals the store.  With a failure the run is marked as failed, and the failure is answered
unchanged whatever becomes of the store. -/
def finalize (failure : Option Failure) : Step κ Unit := do
  abort
  match (← theRun).store.toReader with
  | .ok reader =>
    modifyRun fun r =>
      { r with
        store := .sealed reader
        status := match failure, r.status with
          | some _, _ => .failed
          | none, .open => .complete
          | none, status => status }
    match failure with
    | none => pure ()
    | some f => fail f
  | .error fault =>
    modifyRun fun r => { r with store := .lost, status := .failed }
    fail (failure.getD (.store fault))

/-- The measured iterations; a failure seals the store. -/
def mainLoop (token : Token) : Step κ Unit := do
  match ← settle (measure token) with
  | .ok () => pure ()
  | .error f => finalize (some f)

/-- Requires the mean of each listed metric to be below its ceiling. -/
def checkCeilings (ceilings : Named Int64) : Step κ Unit := do
  match (← theRun).reader with
  | .error f => fail f
  | .ok reader => ofResult (reader.checkCeilings ceilings)

/-- The ceilings of the run's own configuration. -/
def checkOwnCeilings : Step κ Unit := do
  let ceilings := (← theRun).config.ceilings
  if !ceilings.isEmpty then checkCeilings ceilings

/-- A whole run. -/
def execute (token : Token) : Step κ Unit := do
  prepare
  match ← settle (warmup token) with
  | .error f => finalize (some f)
  | .ok () =>
    mainLoop token
    finalize none
    checkOwnCeilings

/-- Gives the samples of a sealed store up. -/
def dispose : Step κ Unit := do
  match (← theRun).store with
  | .writing _ => fail .notFinalized
  | .lost => pure ()
  | .sealed reader =>
    let (result, reader) := reader.dispose
    modifyRun fun r => { r with store := .sealed reader }
    ofResult (ofStore result)

/-! ## Operations -/

/-- What a caller can do with a run. -/
inductive Operation where
  | prepare
  | start
  | restart
  | stop
  | abort
  | attach (name : String) (value : Int64)
  | warmup
  | mainLoop
  | execute
  | finalize (failure : Option Failure)
  | dispose

def Operation.perform (token : Token) : Operation → Step κ Unit
  | prepare => Run.prepare
  | start => Run.start .fresh
  | restart => Run.start .accumulate
  | stop => Run.stop
  | abort => Run.abort
  | attach name value => Run.attach name value
  | warmup => Run.warmup token
  | mainLoop => Run.mainLoop token
  | execute => Run.execute token
  | finalize failure => Run.finalize failure
  | dispose => Run.dispose

end Gauge.Run
