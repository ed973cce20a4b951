import Gauge.Token

/-!
# The world of a run

What a run depends on and leaves behind outside of itself: the time, the counters of the machine,
the cancellation tokens, the cancellations that other threads have in store, and a journal.  Time
passes with every step, so that a cancellation can fall between any two of them.

## Main definitions

* `World ε` — the state of the world, with a journal of events `ε`.
* `Halt` — why a step does not come to its end.
* `Act ε α` — a step in the world.
* `World.checkpoint`, `World.sleep`, `World.pause`, `World.cancel` — the steps of cooperative
  cancellation.
-/

namespace Gauge

/-- What the counters of the machine show. -/
structure Readings where
  /-- time in nanoseconds -/
  elapsed : UInt64
  /-- processor time of the thread in nanoseconds -/
  cpu : UInt64
  /-- bytes allocated so far -/
  allocated : UInt64
  /-- the largest size of the process in bytes -/
  peak : UInt64

/-- A cancellation that another thread will make when the time has come. -/
structure Alarm where
  due : Nat
  token : Token
  scope : Scope
  deriving DecidableEq

/-- The state of the world. -/
structure World (ε : Type) where
  /-- nanoseconds since the beginning -/
  clock : Nat := 0
  cpu : UInt64 := 0
  allocatedBytes : UInt64 := 0
  allocations : UInt64 := 0
  peak : UInt64 := 4194304
  tokens : Tokens := {}
  /-- the cancellations to come -/
  alarms : List Alarm := []
  /-- from this time on nobody waits for the work any more -/
  horizon : Option Nat := none
  /-- the events so far, the latest first -/
  journal : List ε := []

/-- Why a step does not come to its end. -/
inductive Halt where
  | failure (f : Failure)
  | panic (p : Panic)
  /-- nobody waits for the work any more -/
  | abandoned

/-- A step in the world. -/
abbrev Act (ε : Type) := EStateM Halt (World ε)

/-- The failure of a step as a value; a panic goes on. -/
def settle {σ α : Type} (x : EStateM Halt σ α) : EStateM Halt σ (Except Failure α) := fun s =>
  match x s with
  | .ok a s => .ok (.ok a) s
  | .error (.failure f) s => .ok (.error f) s
  | .error h s => .error h s

def fail {σ α : Type} (f : Failure) : EStateM Halt σ α := throw (.failure f)

/-- A result as a step. -/
def ofResult {σ α : Type} : Except Failure α → EStateM Halt σ α
  | .ok a => pure a
  | .error f => fail f

namespace World

variable {ε : Type}

/-! ## Time -/

/-- Makes the cancellation of an alarm. -/
def ring (w : World ε) (a : Alarm) : World ε := { w with tokens := w.tokens.cancel a.token a.scope }

/-- Puts an alarm among those to come, behind the ones due no later. -/
def setAlarm (w : World ε) (a : Alarm) : World ε :=
  let (sooner, later) := w.alarms.partition fun b => b.due ≤ a.due
  { w with alarms := sooner ++ a :: later }

/-- Forgets an alarm that has not been due. -/
def clearAlarm (w : World ε) (a : Alarm) : World ε := { w with alarms := w.alarms.erase a }

/-- Lets the time pass until `time`, making the cancellations that are due by then. -/
def passUntil (w : World ε) (time : Nat) : World ε :=
  let (due, later) := w.alarms.partition fun a => a.due ≤ time
  { due.foldl ring w with alarms := later, clock := max w.clock time }

/-- Goes on until `time`, or until nobody waits any more. -/
def goOn (time : Nat) : Act ε Unit := fun w =>
  match w.horizon with
  | none => .ok () (w.passUntil time)
  | some horizon =>
    if time < horizon then .ok () (w.passUntil time)
    else .error .abandoned (w.passUntil horizon)

/-- One step of work takes a nanosecond. -/
def tick : Act ε Unit := fun w => goOn (w.clock + 1) { w with cpu := w.cpu + 1 }

/-- Sleeps for a number of nanoseconds, whatever happens. -/
def sleep (nanos : Nat) : Act ε Unit := fun w => goOn (w.clock + nanos) w

/-! ## Cancellation -/

/-- A new token without tokens above it. -/
def newToken : Act ε Token := fun w =>
  let (t, tokens) := w.tokens.root
  .ok t { w with tokens := tokens }

/-- A new token below another one. -/
def newChild (parent : Token) : Act ε Token := fun w =>
  let (t, tokens) := w.tokens.child parent
  .ok t { w with tokens := tokens }

def cancel (t : Token) (scope : Scope) : Act ε Unit :=
  modify fun w => { w with tokens := w.tokens.cancel t scope }

/-- Fails once the token is cancelled. -/
def checkpoint (t : Token) : Act ε Unit := do
  tick
  if (← get).tokens.isCancelled t then fail .cancelled

/-- When the first of the alarms by `time` cancels a token. -/
def wakeTime? (w : World ε) (t : Token) (time : Nat) : Option Nat :=
  (w.alarms.find? fun a => a.due ≤ time && t.path.contains a.token.cell).map (·.due)

/-- Sleeps for a number of nanoseconds, but no longer than until the token is cancelled, and fails
then. -/
def pause (t : Token) (nanos : Nat) : Act ε Unit := do
  checkpoint t
  let w ← get
  if nanos ≠ 0 then
    let time := w.clock + nanos
    goOn ((w.wakeTime? t time).getD time)
    if (← get).tokens.isCancelled t then fail .cancelled

/-! ## Counters and journal -/

/-- A time that a counter can show. -/
def counterOf (n : Nat) : UInt64 := UInt64.ofNat (min n (UInt64.size - 1))

def readings (w : World ε) : Readings where
  elapsed := counterOf w.clock
  cpu := w.cpu
  allocated := w.allocatedBytes
  peak := w.peak

/-- Counts an allocation that takes a number of new bytes. -/
def allocate (bytes : Nat) : Act ε Unit := modify fun w =>
  { w with allocatedBytes := w.allocatedBytes + UInt64.ofNat bytes, allocations := w.allocations + 1 }

/-- Counts a resize; only growth takes new bytes. -/
def reallocate (old new : Nat) : Act ε Unit := allocate (new - old)

def log (event : ε) : Act ε Unit := modify fun w => { w with journal := event :: w.journal }

/-- The events in the order they happened. -/
def events (w : World ε) : List ε := w.journal.reverse

end World

end Gauge
