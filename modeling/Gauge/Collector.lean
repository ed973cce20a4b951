import Gauge.World

/-!
# Collectors

A collector brackets an iteration and reports one integer.  Collectors are started in ascending
priority and stopped in the reverse order, so that the one with the lowest priority encloses all
others.

## Main definitions

* `Device κ` — what the measuring part of a collector can do.
* `Collector κ` — a device under a name and a priority.
* `CollectionMode` — whether an iteration resets its collectors.
* `startOrder` — the order in which collectors are started.
* `Event κ` — what a journal records.
-/

namespace Gauge

/-- A device measures between a start and a stop. -/
class Device (κ : Type) where
  /-- begins a new measurement and forgets the old one -/
  start : κ → Readings → κ
  /-- goes on without forgetting; a device that cannot begins anew -/
  restart : κ → Readings → κ := start
  /-- ends the measurement, or breaks off -/
  stop : κ → Readings → Except Panic κ
  /-- the value of the last measurement that ended -/
  value : κ → Int64

/-- A device under the name of its metric. -/
structure Collector (κ : Type) where
  name : String
  /-- a lower priority starts first and stops last -/
  priority : Int32
  device : κ

def Collector.value {κ : Type} [Device κ] (c : Collector κ) : Int64 := Device.value c.device

/-- Whether an iteration resets its collectors. -/
inductive CollectionMode where
  | fresh
  | accumulate
  deriving DecidableEq

/-- The positions of collectors in ascending priority; equal priorities keep their order. -/
def startOrder {κ : Type} (collectors : List (Collector κ)) : List Nat :=
  (collectors.zipIdx.mergeSort fun a b => a.1.priority ≤ b.1.priority).map (·.2)

/-- The three hooks of a workload. -/
inductive Stage where
  | before
  | body
  | after
  deriving DecidableEq

/-- The calls that a collector gets. -/
inductive Call where
  | start
  | restart
  | stop
  deriving DecidableEq

/-- What a journal records: a hook is called, or a collector, as it was before the call. -/
inductive Event (κ : Type) where
  | hook (stage : Stage)
  | collector (call : Call) (who : Collector κ)

def CollectionMode.call : CollectionMode → Call
  | fresh => .start
  | accumulate => .restart

def Call.apply {κ : Type} [Device κ] (call : Call) (device : κ) (r : Readings) : Except Panic κ :=
  match call with
  | .start => .ok (Device.start device r)
  | .restart => .ok (Device.restart device r)
  | .stop => Device.stop device r

end Gauge
