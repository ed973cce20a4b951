import Gauge.Store.Reader

/-!
# Writing samples

A writer appends samples in iteration order and keeps one accumulator per metric.  While samples are
spooled, the latest one is held back in memory until the next one arrives, so that user values can
still be attached to it.

## Main definitions

* `Backing` — the samples written so far.
* `Writer.write` — one more sample.
* `Writer.attach` — a user value for the latest sample.
* `Writer.sealed` — the end of writing.
-/

namespace Gauge

/-- The samples written so far. -/
inductive Backing where
  /-- all samples, the latest first -/
  | buffered (latestFirst : List Sample)
  /-- the frames written, the latest first, and the sample held back -/
  | spooled (frames : List (List UInt8)) (pending : Option Sample)
  deriving DecidableEq

/-- A store that is being written. -/
structure Writer where
  backing : Backing
  /-- when the iteration started whose values come next -/
  pendingStart : Option Int64
  tallies : Tallies
  count : Nat

namespace Writer

/-- A writer without samples. -/
def ofMode (mode : StoreMode) : Writer where
  backing := match mode with
    | .buffered => .buffered []
    | .spooled => .spooled [] none
  pendingStart := none
  tallies := Named.empty
  count := 0

/-- The writer for a planned number of iterations. -/
def ofPlanned (executions : Nat) : Writer := ofMode (.ofPlanned executions)

def mode (w : Writer) : StoreMode :=
  match w.backing with
  | .buffered _ => .buffered
  | .spooled .. => .spooled

/-- The accumulator of one metric, once it has a value. -/
def running? (w : Writer) (name : String) : Option Tally := w.tallies.find? name

/-- Notes when the iteration started whose values come next. -/
def noteStart (w : Writer) (start : Int64) : Writer := { w with pendingStart := some start }

/-- Appends the frame of a sample to the frames of a spool. -/
def appendFrame (frames : List (List UInt8)) (s : Sample) :
    Except StoreFault (List (List UInt8)) :=
  match Frame.encode s.toRecord with
  | .ok frame => .ok (frame :: frames)
  | .error fault => .error (.codec fault)

/-- Appends a sample.  Its values are counted first; then, in a spool, the sample takes the place of
the one held back, whose frame is written.  If that frame is refused, the sample held back before is
lost and the number of samples stays. -/
def write (w : Writer) (values : Named Int64) : Except StoreFault Unit × Writer :=
  let sample : Sample := { start := w.pendingStart.getD 0, values := values }
  let w := { w with pendingStart := none, tallies := w.tallies.pushAll values }
  match w.backing with
  | .buffered samples =>
    (.ok (), { w with backing := .buffered (sample :: samples), count := w.count + 1 })
  | .spooled frames none =>
    (.ok (), { w with backing := .spooled frames (some sample), count := w.count + 1 })
  | .spooled frames (some previous) =>
    match appendFrame frames previous with
    | .ok frames =>
      (.ok (), { w with backing := .spooled frames (some sample), count := w.count + 1 })
    | .error fault => (.error fault, { w with backing := .spooled frames (some sample) })

/-- The latest sample, if it is still at hand. -/
def latest? (w : Writer) : Option Sample :=
  match w.backing with
  | .buffered samples => samples.head?
  | .spooled _ pending => pending

/-- Replaces the latest sample. -/
def setLatest (w : Writer) (s : Sample) : Writer :=
  match w.backing with
  | .buffered samples => { w with backing := .buffered (s :: samples.tail) }
  | .spooled frames _ => { w with backing := .spooled frames (some s) }

/-- Attaches a user value to the latest sample.  A name can be given once per sample, as an
accumulator cannot take a value back. -/
def attach (w : Writer) (name : String) (value : Int64) : Except StoreFault Unit × Writer :=
  match w.latest? with
  | none => (.error (.noSample name), w)
  | some s =>
    if s.values.contains name then (.error (.duplicateValue name), w)
    else
      let w := w.setLatest { s with values := s.values.insert name value }
      (.ok (), { w with tallies := w.tallies.push name value })

/-- The metrics that were counted. -/
def keys (w : Writer) : NameSet := w.tallies.map fun _ => ()

/-- The stream that the frames of a spool make up. -/
def stream (frames : List (List UInt8)) : List UInt8 := frames.reverse.flatten

/-- Ends writing.  A spool takes the sample held back and is read back for the aggregates. -/
def sealed (w : Writer) : Except StoreFault Reader :=
  match w.backing with
  | .buffered samples => .ok (.ofSamples samples.reverse w.keys)
  | .spooled frames none => Reader.ofSpool (stream frames) w.keys w.count
  | .spooled frames (some last) =>
    (appendFrame frames last).bind fun frames => Reader.ofSpool (stream frames) w.keys w.count

end Writer

end Gauge
