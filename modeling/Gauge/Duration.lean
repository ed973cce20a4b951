import Gauge.Decimal.Reading
import Gauge.Decimal.Fixed
import Gauge.Text.Alphabetic
import Gauge.Text.Blank
import Gauge.Text.Lower

/-!
# Durations

Deadlines and pauses are whole nanoseconds below `2 ^ 64` seconds.  A duration is written by its
largest unit that is not zero, and read as a number with an optional unit.

## Main definitions

* `Duration` — a span of time.
* `Duration.text` — how messages show it.
* `Duration.ofSeconds?` — from a number of seconds in floating point.
* `TimeUnit` — the units that can follow a number.
* `Duration.parse` — from text such as `3s`, `500ms` or `2m`, with `DurationFault` for what is wrong.
-/

namespace Gauge

/-- A span of time in nanoseconds, below `2 ^ 64` seconds. -/
structure Duration where
  nanos : Nat
  bounded : nanos < UInt64.size * 1000000000

namespace Duration

@[ext] theorem ext {s t : Duration} (h : s.nanos = t.nanos) : s = t := by
  cases s; cases t; cases h; rfl

instance : DecidableEq Duration := fun s t =>
  if h : s.nanos = t.nanos then isTrue (ext h) else isFalse fun e => h (e ▸ rfl)

/-- A number of nanoseconds, cut at the longest span. -/
def ofNanos (n : Nat) : Duration where
  nanos := min n (UInt64.size * 1000000000 - 1)
  bounded := by
    simp only [UInt64.size]
    omega

instance : Inhabited Duration := ⟨ofNanos 0⟩

def ofMillis (ms : UInt64) : Duration := ⟨ms.toNat * 1000000, by have := ms.toNat_lt_size; omega⟩

def ofSecs (s : UInt64) : Duration := ⟨s.toNat * 1000000000, by have := s.toNat_lt_size; omega⟩

/-- The whole milliseconds of a span. -/
def millis (d : Duration) : Nat := d.nanos / 1000000

def secs (d : Duration) : Nat := d.nanos / 1000000000

/-- What is left of a span after its whole seconds, in nanoseconds. -/
def subsecNanos (d : Duration) : Nat := d.nanos % 1000000000

/-! ## Writing -/

/-- The places after the point, without the zeros at their end. -/
def places (width n : Nat) : String :=
  let digits := padLeft width '0' (toString n)
  let kept := (digits.toList.reverse.dropWhile (· == '0')).reverse
  if kept.isEmpty then "" else "." ++ String.ofList kept

/-- A number of units with `width` decimal places. -/
def inUnits (width n : Nat) (unit : String) : String :=
  toString (n / Nat.pow 10 width) ++ places width (n % Nat.pow 10 width) ++ unit

/-- The span in its largest unit that is not zero. -/
def text (d : Duration) : String :=
  if 1000000000 ≤ d.nanos then inUnits 9 d.nanos "s"
  else if 1000000 ≤ d.nanos then inUnits 6 d.nanos "ms"
  else if 1000 ≤ d.nanos then inUnits 3 d.nanos "µs"
  else inUnits 0 d.nanos "ns"

/-! ## Reading -/

/-- A number of seconds rounded to the nearest nanosecond, a half to the even one.  There is no span
for a negative number, for one that is not finite, and for one that is too large. -/
def ofSeconds? (x : Float) : Option Duration :=
  match FloatShape.ofFloat x with
  | .finite negative d =>
    if negative ∧ d.mantissa ≠ 0 then none
    else
      let n := roundHalfEven (d.num * 1000000000) d.den
      if h : n < UInt64.size * 1000000000 then some ⟨n, h⟩ else none
  | _ => none

end Duration

/-- The units that durations are written in. -/
inductive TimeUnit where
  | nanosecond
  | microsecond
  | millisecond
  | second
  | minute
  | hour
  deriving DecidableEq

namespace TimeUnit

/-- The unit of a name in lower case; no name at all means seconds. -/
def ofName? (name : String) : Option TimeUnit :=
  if name = "ns" then some nanosecond
  else if name = "us" ∨ name = "µs" then some microsecond
  else if name = "ms" then some millisecond
  else if name = "s" ∨ name = "" then some second
  else if name = "m" ∨ name = "min" then some minute
  else if name = "h" then some hour
  else none

def seconds : TimeUnit → Float
  | nanosecond => 1e-9
  | microsecond => 1e-6
  | millisecond => 1e-3
  | second => 1.0
  | minute => 60.0
  | hour => 3600.0

end TimeUnit

/-- What can be wrong with the text of a duration. -/
inductive DurationFault where
  | empty
  /-- what stands before the unit is no number -/
  | badNumber (number : String)
  /-- the number is negative or too large for a float -/
  | badValue (text : String)
  | unknownUnit (unit : String)
  /-- the span is longer than any duration -/
  | tooLong (text : String)
  deriving DecidableEq

namespace DurationFault

def message : DurationFault → String
  | empty => "Empty duration string"
  | badNumber number => s!"Invalid duration number: {number}"
  | badValue text => s!"Invalid duration: {text}"
  | unknownUnit unit => s!"Unknown duration unit: {unit}"
  | tooLong text =>
    s!"Invalid duration {text}: cannot convert float seconds to Duration: " ++
      "value is either too big or NaN"

end DurationFault

namespace Duration

/-- Splits a text in front of its first letter; seconds are the unit of a text without one. -/
def splitUnit (cs : List Char) : List Char × List Char :=
  let number := cs.takeWhile (!Text.isAlphabetic ·)
  match cs.dropWhile (!Text.isAlphabetic ·) with
  | [] => (number, ['s'])
  | unit => (number, unit)

/-- Reads a number and a unit, in this order: the number, its sign and size, the unit, the span. -/
def parse (input : String) : Except DurationFault Duration :=
  let cs := Text.trimChars input.toList
  let shown := String.ofList cs
  if cs.isEmpty then .error .empty
  else
    let (number, unit) := splitUnit cs
    match readFloat? (Text.trimChars number) with
    | none => .error (.badNumber (String.ofList number))
    | some x =>
      if !x.isFinite || x < 0.0 then .error (.badValue shown)
      else
        match TimeUnit.ofName? (Text.toLower (String.ofList unit)) with
        | none => .error (.unknownUnit (String.ofList unit))
        | some u =>
          match ofSeconds? (x * u.seconds) with
          | none => .error (.tooLong shown)
          | some d => .ok d

end Duration

end Gauge
