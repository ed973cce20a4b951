import Gauge.Toml.Basic
import Gauge.Toml.Quoted

/-!
# Numbers and dates in TOML

Digits may be grouped by single underscores.  Whole numbers are signed 64-bit values, also in
hexadecimal, octal and binary digits.  A number with a point or an exponent is the nearest float.

## Main definitions

* `Toml.grouped?` — a run of digits with underscores between them.
* `Toml.number?` — a number.
* `Toml.moment?` — a date, a time of day, or both.
-/

namespace Gauge.Toml

/-- Splits a run of digits off, without the underscores that group them.  An underscore stands
between two digits. -/
def grouped? (isDigit : Char → Bool) (cs : List Char) : Option (List Char × List Char) :=
  let inRun (c : Char) := isDigit c || c = '_'
  let run := cs.takeWhile inRun
  let groupsOk := (run.zip (run.drop 1)).all fun p => isDigit p.1 || isDigit p.2
  if run.head?.any isDigit && run.getLast?.any isDigit && groupsOk then
    some (run.filter isDigit, cs.dropWhile inRun)
  else none

/-- A whole number in range. -/
def inRange? (n : Int) : Option Toml :=
  if Int64.minValue.toInt ≤ n ∧ n ≤ Int64.maxValue.toInt then some (int (Int64.ofInt n)) else none

/-- A whole number in digits of another base, behind the mark of the base. -/
def basedNumber? (base : Nat) (cs : List Char) : Option (Toml × List Char) := do
  let isDigit (c : Char) := (Text.hexValue? c).any (· < base)
  let (digits, rest) ← grouped? isDigit cs
  let n := digits.foldl (fun n c => base * n + (Text.hexValue? c).getD 0) 0
  return (← inRange? n, rest)

/-- The digits behind a point, if there is one. -/
def fraction? : List Char → Option (Option (List Char) × List Char)
  | '.' :: rest => (grouped? Char.isDigit rest).map fun (ds, rest) => (some ds, rest)
  | cs => some (none, cs)

/-- The exponent behind its mark, if there is one. -/
def exponent? (cs : List Char) : Option (Option Int × List Char) :=
  match cs with
  | c :: rest =>
    if c = 'e' ∨ c = 'E' then
      let (negative, rest) := splitSign rest
      (grouped? Char.isDigit rest).map fun (ds, rest) =>
        (some (if negative then -(digitsValue ds : Int) else digitsValue ds), rest)
    else some (none, cs)
  | [] => some (none, [])

/-- A number without its sign; only zero begins with the digit zero.  A float above all finite ones
is refused, one below all of them is minus infinity. -/
def decimalNumber? (negative : Bool) (cs : List Char) : Option (Toml × List Char) := do
  let (whole, rest) ← grouped? Char.isDigit cs
  if whole.head? = some '0' ∧ 1 < whole.length then none
  let (fraction, rest) ← fraction? rest
  let (exponent, rest) ← exponent? rest
  if fraction.isNone && exponent.isNone then
    let n : Int := digitsValue whole
    return (← inRange? (if negative then -n else n), rest)
  let d := Decimal.ofPlaces whole (fraction.getD [])
  let x := { d with exponent := d.exponent + exponent.getD 0 }.toFloat
  if negative then return (float (-x), rest)
  else if x.isInf then none
  else return (float x, rest)

/-- Splits a word off the front of a text. -/
def word? (word : String) (cs : List Char) : Option (List Char) :=
  if word.toList.isPrefixOf cs then some (cs.drop word.length) else none

/-- A number. -/
def number? (cs : List Char) : Option (Toml × List Char) :=
  match cs with
  | '0' :: 'x' :: rest => basedNumber? 16 rest
  | '0' :: 'o' :: rest => basedNumber? 8 rest
  | '0' :: 'b' :: rest => basedNumber? 2 rest
  | cs =>
    let (negative, unsigned) := splitSign cs
    match word? "inf" unsigned, word? "nan" unsigned with
    | some rest, _ =>
      let x := Float.ofBits infinityBits.toUInt64
      some (float (if negative then -x else x), rest)
    | none, some rest => some (float notANumber, rest)
    | none, none => decimalNumber? negative unsigned

/-! ## Dates -/

/-- A number of so many digits, within bounds. -/
def field? (width low high : Nat) (cs : List Char) : Option (Nat × List Char) :=
  let digits := cs.take width
  let n := digitsValue digits
  if digits.length = width ∧ digits.all Char.isDigit ∧ low ≤ n ∧ n ≤ high then
    some (n, cs.drop width)
  else none

def daysIn (year month : Nat) : Nat :=
  if month = 2 then
    if year % 4 = 0 ∧ (year % 100 ≠ 0 ∨ year % 400 = 0) then 29 else 28
  else if month = 4 ∨ month = 6 ∨ month = 9 ∨ month = 11 then 30
  else 31

/-- What follows a day. -/
def day? (cs : List Char) : Option (List Char) := do
  let (year, rest) ← field? 4 0 9999 cs
  let (month, rest) ← field? 2 1 12 (← word? "-" rest)
  let (_, rest) ← field? 2 1 (daysIn year month) (← word? "-" rest)
  return rest

/-- What follows an hour and a minute. -/
def minute? (cs : List Char) : Option (List Char) := do
  let (_, rest) ← field? 2 0 23 cs
  let (_, rest) ← field? 2 0 59 (← word? ":" rest)
  return rest

/-- What follows a time of day, with any digits behind a point. -/
def time? (cs : List Char) : Option (List Char) := do
  let (_, rest) ← field? 2 0 60 (← word? ":" (← minute? cs))
  match rest with
  | '.' :: c :: rest => return if c.isDigit then rest.dropWhile Char.isDigit else '.' :: c :: rest
  | rest => return rest

/-- What follows the distance of a clock from universal time, if one is given. -/
def offset? : List Char → Option (List Char)
  | 'Z' :: rest => some rest
  | 'z' :: rest => some rest
  | '+' :: rest => minute? rest
  | '-' :: rest => minute? rest
  | rest => some rest

/-- What follows a day and, where one is given, its time. -/
def dayAndTime? (cs : List Char) : Option (List Char) := do
  let rest ← day? cs
  match rest with
  | c :: more =>
    if c = 'T' ∨ c = 't' ∨ c = ' ' then
      match time? more with
      | some rest => offset? rest
      | none => return rest
    else return rest
  | [] => return []

/-- Whether a number goes on as a date or a time of day. -/
def looksLikeMoment : List Char → Bool
  | a :: b :: ':' :: _ => a.isDigit && b.isDigit
  | a :: b :: c :: d :: '-' :: _ => a.isDigit && b.isDigit && c.isDigit && d.isDigit
  | _ => false

/-- A date, a time of day, or both. -/
def moment? (cs : List Char) : Option (Toml × List Char) :=
  ((dayAndTime? cs).or (time? cs)).map (moment, ·)

end Gauge.Toml
