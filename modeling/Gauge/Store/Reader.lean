import Gauge.Stats.Summary
import Gauge.Store.Frame

/-!
# Sealed stores

A sealed store answers from what was computed when it was sealed (keys, number of samples,
aggregates) and from what it still holds (the samples, in memory or in the spool file).

## Main definitions

* `Holding` — what a sealed store still holds.
* `Reader` — a sealed store.
* `Cursor` — a walk over its samples, which ends after its first error.
* `Reader.clear`, `Reader.dispose` — giving samples up.
-/

namespace Gauge

/-- What a sealed store still holds.  A spool file that was deleted holds nothing, but the store
does not know that until it opens the file. -/
inductive Holding where
  | buffered (samples : List Sample)
  | spooled (file : Option (List UInt8))
  | disposed
  deriving DecidableEq

/-- A walk over the samples of a sealed store. -/
inductive Cursor where
  | buffered (rest : List Sample)
  /-- `remaining` more records are expected from the stream -/
  | spooled (stream : List UInt8) (remaining : Nat)
  /-- one error, then the end -/
  | failing (fault : StoreFault)
  | ended
  deriving DecidableEq

namespace Cursor

/-- How many steps are left at most. -/
def steps : Cursor → Nat
  | buffered rest => rest.length
  | spooled _ remaining => remaining
  | failing _ => 1
  | ended => 0

/-- The next sample or error, and the walk from there.  A stream that ends before the expected
number of records is damaged, and any error is the last answer. -/
def next? : Cursor → Option (Except StoreFault Sample × Cursor)
  | buffered [] => none
  | buffered (s :: rest) => some (.ok s, buffered rest)
  | spooled _ 0 => none
  | spooled stream (remaining + 1) =>
    match Frame.read stream with
    | .ok (r, rest) => some (.ok r.toSample, spooled rest remaining)
    | .error .endOfStream => some (.error (.codec (.invalid .endedEarly)), ended)
    | .error fault => some (.error (.codec fault), ended)
  | failing fault => some (.error fault, ended)
  | ended => none

theorem steps_lt_of_next? {c c' : Cursor} {x : Except StoreFault Sample}
    (h : c.next? = some (x, c')) : c'.steps < c.steps := by
  unfold next? at h
  split at h
  · cases h
  · cases h; simp [steps]
  · cases h
  · split at h <;> cases h <;> simp [steps]
  · cases h; simp [steps]
  · cases h

/-- All that the walk answers, after what it has answered already, latest first. -/
def collect (c : Cursor) (answered : List (Except StoreFault Sample)) :
    List (Except StoreFault Sample) :=
  match h : c.next? with
  | none => answered.reverse
  | some (x, c') =>
    have := steps_lt_of_next? h
    c'.collect (x :: answered)
termination_by c.steps

def toList (c : Cursor) : List (Except StoreFault Sample) := c.collect []

theorem collect_eq (c : Cursor) (answered : List (Except StoreFault Sample)) :
    c.collect answered = answered.reverse ++ c.toList := by
  induction h : c.steps using Nat.strongRecOn generalizing c answered with
  | _ n ih =>
    unfold toList
    rw [collect, collect]
    split
    · simp
    · next x c' hx =>
      have hlt := steps_lt_of_next? hx
      rw [ih _ (h ▸ hlt) c' _ rfl, ih _ (h ▸ hlt) c' _ rfl]
      simp

theorem toList_of_none {c : Cursor} (h : c.next? = none) : c.toList = [] := by
  rw [toList, collect]; split <;> simp_all

theorem toList_of_some {c c' : Cursor} {x : Except StoreFault Sample}
    (h : c.next? = some (x, c')) : c.toList = x :: c'.toList := by
  rw [toList, collect]; split
  · simp_all
  · next y d hd =>
    rw [h] at hd; cases hd
    simp [collect_eq]

end Cursor

/-- A sealed store. -/
structure Reader where
  holding : Holding
  mode : StoreMode
  /-- every metric that was counted while the store was written -/
  keys : NameSet
  count : Nat
  aggregates : Named Summary

/-- Accumulators of all metrics. -/
abbrev Tallies := Named Tally

def Tallies.push (t : Tallies) (name : String) (value : Int64) : Tallies :=
  Named.alter t name fun tally => (tally.getD Running.empty).push value

def Tallies.pushAll (t : Tallies) (values : Named Int64) : Tallies :=
  values.entries.foldl (fun t e => t.push e.1 e.2) t

namespace Reader

/-- Seals samples in memory: every metric is summarised by a scan of its series. -/
def ofSamples (samples : List Sample) (keys : NameSet) : Reader where
  holding := .buffered samples
  mode := .buffered
  keys := keys
  count := samples.length
  aggregates := keys.filterMap fun name _ =>
    Summary.ofSeries? (samples.filterMap fun s => s.values.find? name)

/-- Counts the samples of a walk, up to its first error. -/
def tally (t : Tallies) : List (Except StoreFault Sample) → Except StoreFault Tallies
  | [] => .ok t
  | .ok s :: rest => tally (t.pushAll s.values) rest
  | .error fault :: _ => .error fault

/-- Seals a spool: the stream is read back once, and the aggregates are those of what was read. -/
def ofSpool (stream : List UInt8) (keys : NameSet) (count : Nat) : Except StoreFault Reader :=
  (tally Named.empty (Cursor.spooled stream count).toList).map fun t =>
    { holding := .spooled (some stream)
      mode := .spooled
      keys := keys
      count := count
      aggregates := t.filterMap fun _ tally => tally.summary? }

/-- A walk over the samples from the first one. -/
def cursor (r : Reader) : Cursor :=
  match r.holding with
  | .buffered samples => .buffered samples
  | .spooled (some stream) => .spooled stream r.count
  | .spooled none => .failing .spoolMissing
  | .disposed => .failing .disposed

/-- The samples in iteration order; an error is the last item. -/
def samples (r : Reader) : List (Except StoreFault Sample) := r.cursor.toList

/-- When the iterations started, in iteration order. -/
def timestamps (r : Reader) : List (Except StoreFault Int64) :=
  r.samples.map fun s => s.map (·.start)

/-- The values of one metric, `none` where a sample lacks it; the first error stands for all. -/
def values (r : Reader) (name : String) : Except StoreFault (List (Option Int64)) :=
  r.samples.mapM fun s => s.map (·.values.find? name)

/-- The aggregates of one metric. -/
def summary? (r : Reader) (name : String) : Option Summary := r.aggregates.find? name

/-- Whether the samples were given up. -/
def isDisposed (r : Reader) : Bool := r.holding = .disposed

/-- Whether the store still answers from a spool file. -/
def hasSpool (r : Reader) : Bool :=
  match r.holding with
  | .spooled _ => true
  | _ => false

/-- Gives up the values of one metric that are held in memory; aggregates stay, and a spool is not
touched. -/
def clear (r : Reader) (name : String) : Reader :=
  match r.holding with
  | .buffered samples =>
    { r with
      holding := .buffered (samples.map fun s => { s with values := s.values.erase name }) }
  | _ => r

/-- Gives up all samples.  Deleting a spool file that is gone fails, and the samples are given up
all the same; a second time there is nothing left to do. -/
def dispose (r : Reader) : Except StoreFault Unit × Reader :=
  let result := match r.holding with
    | .spooled none => .error .spoolMissing
    | _ => .ok ()
  (result, { r with holding := .disposed })

end Reader

end Gauge
