import Gauge.Run.Basic

/-!
# The bracket around an iteration

An iteration is measured between a start and a stop of all collectors.  Only a stop writes a sample;
an iteration that is given up stops its collectors and leaves nothing.

## Main definitions

* `Run.prepare` — settles the order of the collectors.
* `Run.start`, `Run.stop`, `Run.abort` — the bracket.
* `Run.attach` — a user value for the latest sample.
-/

namespace Gauge.Run

open Step

variable {κ : Type} [Device κ]

/-- Settles the start order of the collectors. -/
def prepare : Step κ Unit :=
  modifyRun fun r => { r with order := some (startOrder r.collectors) }

def callCollector (call : Call) (i : Nat) : Step κ Unit := do
  match (← theRun).collectors[i]? with
  | none => pure ()
  | some c =>
    inWorld (World.log (.collector call c))
    inWorld World.tick
    match call.apply c.device (← get).world.readings with
    | .ok device =>
      modifyRun fun r => { r with collectors := r.collectors.set i { c with device := device } }
    | .error p => throw (.panic p)

def callCollectors (call : Call) (order : List Nat) : Step κ Unit :=
  order.forM (callCollector call)

/-- Begins an iteration: notes its time and starts every collector. -/
def start (mode : CollectionMode) : Step κ Unit := do
  let r ← theRun
  match r.order, r.store with
  | none, _ => fail (.misconfigured .unprepared)
  | some order, .writing w =>
    if r.collecting then fail (.misconfigured .alreadyCollecting)
    let now := (← get).world.clock
    modifyRun fun r => { r with store := .writing (w.noteStart (Int64.ofNat (now / 1000000))) }
    callCollectors mode.call order
    modifyRun fun r => { r with collecting := true }
  | some _, _ => fail .sealed

/-- Stops every collector, in reverse start order. -/
def stopCollectors : Step κ Unit := do
  callCollectors .stop ((← theRun).order.getD []).reverse
  modifyRun fun r => { r with collecting := false }

/-- The values that the collectors show. -/
def values (r : Run κ) : Named Int64 := .ofList (r.collectors.map fun c => (c.name, c.value))

/-- Appends the values of the collectors as a sample. -/
def writeSample (w : Writer) : Step κ Unit := do
  let (result, w) := w.write (values (← theRun))
  modifyRun fun r => { r with store := .writing w }
  match result with
  | .ok () => modifyRun fun r => { r with executions := w.count }
  | .error fault => fail (.store fault)

/-- Ends an iteration and appends its sample. -/
def stop : Step κ Unit := do
  let r ← theRun
  match r.store with
  | .writing w =>
    if !r.collecting then fail (.misconfigured .notCollecting)
    stopCollectors
    writeSample w
  | _ => fail .sealed

/-- Gives an open iteration up: its collectors stop, and no sample is written. -/
def abort : Step κ Unit := do
  if (← theRun).collecting then stopCollectors

/-- Attaches a user value to the latest sample. -/
def attach (name : String) (value : Int64) : Step κ Unit := do
  let r ← theRun
  if name ∈ r.names then fail (.misconfigured (.nameTaken name))
  match r.store with
  | .writing w =>
    let (result, w) := w.attach name value
    modifyRun fun r => { r with store := .writing w }
    match result with
    | .ok () => pure ()
    | .error fault => fail (.store fault)
  | _ => fail .sealed

end Gauge.Run
