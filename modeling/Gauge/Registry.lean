import Gauge.Instrument

/-!
# Registries

A registry maps identifiers to constructors of collectors.  A set of collectors is a list of
identifiers.

## Main definitions

* `Constructor κ` — makes a collector, or fails with a chain of causes.
* `Registry κ` — the constructors; an identifier is registered once.
* `Registry.create`, `Registry.instantiateStrict`, `Registry.instantiate` — from identifiers to
  collectors.
* `CollectorSet` — which collectors a run uses, with its presets.
* `Registry.builtins` — the collectors of the library.
-/

namespace Gauge

/-- Which collectors a run uses, in declaration order. -/
abbrev CollectorSet := List String

def elapsedTime : String := "repmeter.time"

def cpuTime : String := "repmeter.cpu"

def allocatedBytes : String := "repmeter.alloc"

def peakMemory : String := "repmeter.rss"

namespace CollectorSet

/-- Elapsed time, processor time and allocated bytes. -/
def standard : CollectorSet := [elapsedTime, cpuTime, allocatedBytes]

/-- The standard set and the largest process size. -/
def extended : CollectorSet := [elapsedTime, cpuTime, allocatedBytes, peakMemory]

def onlyTime : CollectorSet := [elapsedTime]

/-- The set of a preset. -/
def preset (name : String) : Except RegistryFault CollectorSet :=
  if name = "standard" then .ok standard
  else if name = "extended" then .ok extended
  else if name = "only-time" then .ok onlyTime
  else if name = "none" then .ok []
  else .error (.unknownPreset name)

end CollectorSet

/-- Makes a collector, or fails with a chain of causes, outermost first. -/
abbrev Constructor (κ : Type) := Except (List String) (Collector κ)

/-- The constructors of collectors. -/
structure Registry (κ : Type) where
  constructors : Named (Constructor κ) := ∅

namespace Registry

variable {κ : Type}

def empty : Registry κ := {}

/-- The identifiers, in order. -/
def ids (r : Registry κ) : List String := r.constructors.names

def contains (r : Registry κ) (id : String) : Bool := r.constructors.contains id

/-- Registers a constructor under an identifier that is not taken. -/
def register (r : Registry κ) (id : String) (c : Constructor κ) :
    Except RegistryFault (Registry κ) :=
  if r.contains id then .error (.duplicate id)
  else .ok { constructors := r.constructors.insert id c }

/-- Creates one collector. -/
def create (r : Registry κ) (id : String) : Except RegistryFault (Collector κ) :=
  match r.constructors.find? id with
  | none => .error (.unknown id)
  | some (.ok c) => .ok c
  | some (.error chain) => .error (.instantiation id chain)

/-- Creates all collectors of a set; the first fault ends it. -/
def instantiateStrict (r : Registry κ) (set : CollectorSet) :
    Except RegistryFault (List (Collector κ)) :=
  set.mapM r.create

/-- Creates the collectors of a set without those whose constructors fail; an identifier that is not
registered is a fault all the same. -/
def instantiate (r : Registry κ) : CollectorSet → Except RegistryFault (List (Collector κ))
  | [] => .ok []
  | id :: ids =>
    match r.create id with
    | .ok c => (r.instantiate ids).map (c :: ·)
    | .error (.instantiation _ _) => r.instantiate ids
    | .error fault => .error fault

end Registry

/-- The collectors of the library under the names of their metrics. -/
def builtinCollectors : List (Collector Instrument) :=
  [ { name := elapsedTime, priority := 1000, device := .summed .elapsed {} },
    { name := cpuTime, priority := 500, device := .summed .cpu {} },
    { name := allocatedBytes, priority := 0, device := .summed .allocated {} },
    { name := peakMemory, priority := 100, device := .peakSize 0 } ]

/-- The registry of the library's collectors. -/
def Registry.builtins : Registry Instrument where
  constructors := .ofList (builtinCollectors.map fun c => (c.name, .ok c))

end Gauge
