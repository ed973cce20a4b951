import Gauge.Named

/-!
# Samples

A sample holds what one iteration measured: the time it started and one value per metric.  A record
is its serialized form, a list of named values in the order they are written.

## Main definitions

* `Sample`, `Record` — one iteration in memory and in the spool.
* `StoreMode` — where samples are kept while a run collects them.
* `FrameFault`, `StoreFault` — what can go wrong, with the text of each.
-/

namespace Gauge

/-- The values that one iteration measured, and when it started. -/
structure Sample where
  start : Int64
  values : Named Int64
  deriving DecidableEq

/-- A sample as it is serialized; names may repeat here. -/
structure Record where
  start : Int64
  values : List (String × Int64)
  deriving DecidableEq

/-- The serialized form lists the values in name order. -/
def Sample.toRecord (s : Sample) : Record := { start := s.start, values := s.values.entries }

/-- The sample of a record; of values with one name the last counts. -/
def Record.toSample (r : Record) : Sample := { start := r.start, values := .ofList r.values }

/-- Where samples are kept: in memory, or in a file that they are appended to. -/
inductive StoreMode where
  | buffered
  | spooled
  deriving DecidableEq

/-- From this number of planned iterations on, samples are spooled. -/
def StoreMode.spoolThreshold : Nat := 1000

/-- The mode for a planned number of iterations. -/
def StoreMode.ofPlanned (executions : Nat) : StoreMode :=
  if executions < spoolThreshold then .buffered else .spooled

/-- Why a frame is malformed. -/
inductive FrameDefect where
  | zeroLength
  /-- the spool holds fewer frames than samples were written -/
  | endedEarly
  deriving DecidableEq

/-- What can go wrong with a frame. -/
inductive FrameFault where
  | tooLarge (size : Nat)
  | invalid (defect : FrameDefect)
  | endOfStream
  /-- the payload is cut short -/
  | truncated
  /-- the payload is no record -/
  | undecodable
  deriving DecidableEq

/-- The largest payload of a frame in bytes. -/
def FrameFault.largest : Nat := 16 * 1024 * 1024

/-- The text of a frame fault.  What the validation of an archive finds wrong is left out of it. -/
def FrameFault.message : FrameFault → String
  | tooLarge size => s!"Frame too large: {size} bytes (max {largest} bytes)"
  | invalid .zeroLength => "Invalid frame: zero-length frame"
  | invalid .endedEarly => "Invalid frame: spool ended early"
  | endOfStream => "End of stream"
  | truncated => "I/O error: failed to fill whole buffer"
  | undecodable => "Deserialization error"

/-- What can go wrong with a store. -/
inductive StoreFault where
  /-- a user value was given before the first sample -/
  | noSample (name : String)
  /-- a user value was given twice for one sample -/
  | duplicateValue (name : String)
  | codec (fault : FrameFault)
  /-- the spool file is gone -/
  | spoolMissing
  | disposed
  deriving DecidableEq

def StoreFault.message : StoreFault → String
  | noSample name => s!"No sample has been written yet; cannot attach value '{name}'"
  | duplicateValue name => s!"Value '{name}' is already set for the current sample"
  | codec fault => s!"Spool codec error: {fault.message}"
  | spoolMissing => "Spool I/O error: No such file or directory (os error 2)"
  | disposed => "Sample store has been disposed"

end Gauge
