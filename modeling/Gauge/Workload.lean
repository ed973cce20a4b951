import Gauge.Collector

/-!
# Workloads

A workload is a measured body between a hook before it and a hook after it, both optional.  What a
call of a hook does is an action; a hook may do something else at every call.

## Main definitions

* `Action` — what one call does.
* `Hook` — a hook, with the number of its calls so far.
* `Workload` — the three hooks.
* `Action.perform` — an action in the world.
-/

namespace Gauge

/-- What one call of a hook does. -/
inductive Action where
  | succeed
  | fail (error : HookError)
  | panic (p : Panic)
  /-- cancels the run's own token -/
  | cancel (scope : Scope)
  /-- sleeps for a number of nanoseconds -/
  | sleep (nanos : Nat)
  /-- sleeps, but wakes up when the run is cancelled and fails then -/
  | pause (nanos : Nat)
  /-- allocates a number of bytes -/
  | allocate (bytes : Nat)
  /-- the second action follows if the first one succeeds -/
  | andThen (first second : Action)

/-- Several actions, up to the first that fails. -/
def Action.inOrder (actions : List Action) : Action := actions.foldr .andThen .succeed

/-- An action in the world of a run with the given token. -/
def Action.perform {ε : Type} (token : Token) : Action → Act ε Unit
  | succeed => pure ()
  | fail error => Gauge.fail error.failure
  | panic p => throw (.panic p)
  | cancel scope => World.cancel token scope
  | sleep nanos => World.sleep nanos
  | pause nanos => World.pause token nanos
  | allocate bytes => World.allocate bytes
  | andThen first second => do
    first.perform token
    second.perform token

/-- A hook: what its calls do, counted from zero, and how many there were. -/
structure Hook where
  script : Nat → Action
  calls : Nat := 0

/-- A hook does nothing unless it is told to. -/
instance : Inhabited Hook := ⟨{ script := fun _ => .succeed }⟩

/-- A body with its setup and its teardown. -/
structure Workload where
  before : Option Hook := none
  body : Hook
  after : Option Hook := none
  deriving Inhabited

namespace Workload

/-- The hook of a stage, if the workload has one. -/
def hook? (w : Workload) : Stage → Option Hook
  | .before => w.before
  | .body => some w.body
  | .after => w.after

def setHook (w : Workload) (h : Hook) : Stage → Workload
  | .before => { w with before := some h }
  | .body => { w with body := h }
  | .after => { w with after := some h }

/-- What the next call of a stage does, and the workload after that call; nothing is called where
there is no hook. -/
def next? (w : Workload) (stage : Stage) : Option (Action × Workload) :=
  (w.hook? stage).map fun h => (h.script h.calls, w.setHook { h with calls := h.calls + 1 } stage)

end Workload

end Gauge
