import Gauge.World

/-!
# Work under a deadline

Work runs on its own while a controller waits for it.  When the deadline passes, the controller
cancels the work's token and waits for a grace period, in which the work can still hand over what it
has.  Work that does not come back by then is left behind.

## Main definitions

* `TimeBound` — a deadline with its grace period.
* `Arrival α` — when the work's answer arrived: in time, in the grace period, or never.
* `Bounded α` — what the controller makes of the answer; `TimeBound.conclude` is the rule.
* `TimeBound.execute` — work under a deadline, in the world.
-/

namespace Gauge

/-- A deadline with its grace period. -/
structure TimeBound where
  scope : Scope
  timeout : Duration
  grace : Duration

/-- The grace period that is given unless another one is asked for: half a second. -/
def defaultGrace : Duration := .ofMillis 500

/-- When the answer of work arrived. -/
inductive Arrival (α : Type) where
  | inTime (answer : α)
  | inGrace (answer : α)
  | never

/-- What a controller reports of work. -/
inductive Bounded (α : Type) where
  /-- the work returned before the deadline -/
  | finished (value : α)
  /-- the deadline passed; the work may have returned in the grace period -/
  | timedOut (partialValue : Option α)

/-- The value that the work returned. -/
def Bounded.value? {α : Type} : Bounded α → Option α
  | finished value => some value
  | timedOut value => value

namespace TimeBound

/-- The failure of a run whose deadline passed. -/
def timeoutFailure (b : TimeBound) : Failure := .timeout b.scope b.timeout

/-- What the controller makes of an answer: work that broke off is a failure, whenever that was. -/
def conclude {α : Type} : Arrival (Except Panic α) → Except Failure (Bounded α)
  | .inTime (.ok value) => .ok (.finished value)
  | .inGrace (.ok value) => .ok (.timedOut (some value))
  | .inTime (.error p) => .error p.inWorker
  | .inGrace (.error p) => .error p.inWorker
  | .never => .ok (.timedOut none)

/-- How work ends in the world, as a value. -/
def ending {ε α : Type} (x : Act ε α) : Act ε (Except Halt α) := fun w =>
  match x w with
  | .ok a w => .ok (.ok a) w
  | .error h w => .ok (.error h) w

/-- The earlier of two times after which nobody waits. -/
def sooner (horizon : Option Nat) (time : Nat) : Nat :=
  match horizon with
  | none => time
  | some t => min t time

/-- Runs work under the deadline.  The answer is in time if it arrives before the deadline, and in
the grace period if it arrives before that ends; the token is cancelled at the deadline, and at once
if there is no time.  If somebody else stops waiting earlier, this wait ends as well. -/
def execute {ε α : Type} (b : TimeBound) (token : Token) (work : Act ε α) :
    Act ε (Except Failure (Bounded α)) := do
  let outer := (← get).horizon
  let deadline := (← get).clock + b.timeout.nanos
  let alarm : Alarm := { due := deadline, token := token, scope := b.scope }
  modify fun w =>
    { (w.setAlarm alarm).passUntil w.clock with
      horizon := some (sooner outer (deadline + b.grace.nanos)) }
  let result ← ending work
  let inTime := (← get).clock < deadline
  modify fun w =>
    { if inTime then w.clearAlarm alarm else w with horizon := outer }
  let arrival (answer : Except Panic α) := if inTime then Arrival.inTime answer else .inGrace answer
  match result with
  | .ok value => return conclude (arrival (.ok value))
  | .error (.panic p) => return conclude (arrival (.error p))
  | .error (.failure f) => return .error f
  | .error .abandoned =>
    match outer with
    | none => return conclude .never
    | some time =>
      if time ≤ (← get).clock then throw .abandoned
      return conclude .never

end TimeBound

end Gauge
