import Gauge.Collector

/-!
# Instruments

The devices that come with the library: those that sum a counter of the machine over brackets, the
one that shows the peak size of the process, and a playback that reports given values.

## Main definitions

* `Accumulator` — the sum of a counter over the brackets closed since the last start.
* `Playback` — a device that reports given values.
* `Instrument` — all of them, as one device.
-/

namespace Gauge

/-- The sum of two words, or the largest word. -/
def saturatingSum (a b : UInt64) : UInt64 := if a + b < a then 18446744073709551615 else a + b

/-- A word as a value, or the largest value. -/
def valueOfWord (n : UInt64) : Int64 :=
  if n < 9223372036854775808 then n.toInt64 else Int64.maxValue

/-- The sum of two values, or the value nearest to it. -/
def saturatingAdd (a b : Int64) : Int64 :=
  let s := a.toInt + b.toInt
  if s < Int64.minValue.toInt then Int64.minValue
  else if Int64.maxValue.toInt < s then Int64.maxValue
  else Int64.ofInt s

/-- A counter summed over brackets: the sum of those that were closed, and where the open one
began. -/
structure Accumulator where
  openedAt : Option UInt64 := none
  total : UInt64 := 0
  deriving DecidableEq

namespace Accumulator

/-- Opens a bracket and forgets the sum. -/
def start (_ : Accumulator) (now : UInt64) : Accumulator := { openedAt := some now, total := 0 }

/-- Opens a bracket and keeps the sum. -/
def restart (a : Accumulator) (now : UInt64) : Accumulator := { a with openedAt := some now }

/-- Closes the open bracket, if there is one. -/
def stop (a : Accumulator) (now : UInt64) : Accumulator :=
  match a.openedAt with
  | none => a
  | some opened =>
    { openedAt := none
      total := saturatingSum a.total (if opened ≤ now then now - opened else 0) }

def value (a : Accumulator) : Int64 := valueOfWord a.total

end Accumulator

/-- The counters that can be summed. -/
inductive Counter where
  | elapsed
  | cpu
  | allocated
  deriving DecidableEq

def Counter.read (r : Readings) : Counter → UInt64
  | elapsed => r.elapsed
  | cpu => r.cpu
  | allocated => r.allocated

/-- A device that adds given values, over and over, and may break off at one of its stops. -/
structure Playback where
  values : Array Int64
  /-- whether a restart keeps the sum -/
  resumes : Bool
  /-- at which stop the device breaks off, and how -/
  breaksAt : Option (Nat × Panic) := none
  sum : Int64 := 0
  stops : Nat := 0

namespace Playback

/-- Forgets the sum. -/
def start (p : Playback) : Playback := { p with sum := 0 }

/-- Keeps the sum, or starts. -/
def restart (p : Playback) : Playback := if p.resumes then p else p.start

/-- The playback after one more stop. -/
def advance (p : Playback) : Playback :=
  { p with
    sum := match p.values[p.stops % p.values.size]? with
      | some v => saturatingAdd p.sum v
      | none => p.sum
    stops := p.stops + 1 }

/-- Adds the next value, or breaks off. -/
def stop (p : Playback) : Except Panic Playback :=
  match p.breaksAt with
  | some (k, panic) => if k = p.stops then .error panic else .ok p.advance
  | none => .ok p.advance

end Playback

/-- The devices of the library. -/
inductive Instrument where
  | summed (counter : Counter) (state : Accumulator)
  /-- the largest size of the process, as it was at the last stop -/
  | peakSize (size : UInt64)
  | playback (p : Playback)

namespace Instrument

def start (i : Instrument) (r : Readings) : Instrument :=
  match i with
  | summed counter a => summed counter (a.start (counter.read r))
  | peakSize size => peakSize size
  | playback p => playback p.start

def restart (i : Instrument) (r : Readings) : Instrument :=
  match i with
  | summed counter a => summed counter (a.restart (counter.read r))
  | peakSize size => peakSize size
  | playback p => playback p.restart

def stop (i : Instrument) (r : Readings) : Except Panic Instrument :=
  match i with
  | summed counter a => .ok (summed counter (a.stop (counter.read r)))
  | peakSize _ => .ok (peakSize r.peak)
  | playback p => p.stop.map playback

def value : Instrument → Int64
  | summed _ a => a.value
  | peakSize size => valueOfWord size
  | playback p => p.sum

instance : Device Instrument where
  start := start
  restart := restart
  stop := stop
  value := value

end Instrument

end Gauge
