import Gauge.Decimal.Notation
import Gauge.Decimal.Reading

/-!
# Numbers in JSON

A number keeps the digits it was written with until it is known what is read from it: a count, a
value or a float.  Whole numbers are exact.  A float is computed from the digits that fit a 64-bit
word and one power of ten, which can differ from the nearest float in the last place.

## Main definitions

* `JsonNumber` — a number as it was written.
* `JsonNumber.toNat?`, `JsonNumber.toInt?`, `JsonNumber.toFloat?` — what can be read from it.
* `JsonNumber.read` — the number at the beginning of a text.
* `writeJsonFloat` — the text of a float.
-/

namespace Gauge

/-- A number as it was written. -/
structure JsonNumber where
  negative : Bool
  whole : List Char
  /-- the digits behind the point, if there is one -/
  fraction : Option (List Char)
  /-- the exponent, if there is one -/
  exponent : Option Int
  deriving DecidableEq

namespace JsonNumber

def wordMax : Nat := UInt64.size - 1

/-- Digits read into a word: the word so far and what is left when the next digit would not fit. -/
def readWord (word : Nat) : List Char → Nat × List Char
  | [] => (word, [])
  | c :: cs =>
    let next := 10 * word + (c.toNat - '0'.toNat)
    if wordMax < next then (word, c :: cs) else readWord next cs

/-- Whether the number is written without point and exponent. -/
def isWhole (n : JsonNumber) : Bool := n.fraction.isNone && n.exponent.isNone

/-- The number as a count, if it is whole, not negative and a word. -/
def toNat? (n : JsonNumber) : Option Nat :=
  if n.isWhole && !n.negative && digitsValue n.whole ≤ wordMax then some (digitsValue n.whole)
  else none

/-- The number as a value, if it is whole and in range; a negative zero is not whole. -/
def toInt? (n : JsonNumber) : Option Int64 :=
  let v := digitsValue n.whole
  if !n.isWhole then none
  else if n.negative then
    if 0 < v ∧ v ≤ UInt64.size / 2 then some (Int64.ofInt (-(v : Int))) else none
  else if v < UInt64.size / 2 then some (Int64.ofNat v)
  else none

/-- The largest power of ten that is a finite float. -/
def largestPower : Nat := 308

def powerOfTen (n : Nat) : Float := nearestFloat (Nat.pow 10 n) 1

/-- Divides by ten to the power of `n`, in steps of the largest power.  Twice that power is more
than any word. -/
def divideByPower (x : Float) (n : Nat) : Float :=
  if n ≤ largestPower then x / powerOfTen n
  else
    let y := x / powerOfTen largestPower
    if n ≤ 2 * largestPower then y / powerOfTen (n - largestPower)
    else y / powerOfTen largestPower / powerOfTen largestPower

/-- A word times a power of ten, unless that is no finite float. -/
def scaled? (word : Nat) (exponent : Int) : Option Float :=
  let x := Float.ofNat word
  if word = 0 then some 0.0
  else if exponent < 0 then some (divideByPower x (-exponent).toNat)
  else if exponent.toNat ≤ largestPower then
    let y := x * powerOfTen exponent.toNat
    if y.isFinite then some y else none
  else none

/-- The number as a float, unless it is too large for one.  Digits that do not fit the word any more
count by their place, and after the point not at all. -/
def toFloat? (n : JsonNumber) : Option Float :=
  let (word, unread) := readWord 0 n.whole
  let (word, unreadFraction) := readWord word (n.fraction.getD [])
  let places := (n.fraction.getD []).length - unreadFraction.length
  let exponent := (unread.length : Int) - places + n.exponent.getD 0
  (scaled? word exponent).map fun x => if n.negative then -x else x

/-! ## Reading -/

/-- Splits the digits in front of a text off; there must be one. -/
def digits? (cs : List Char) : Option (List Char × List Char) :=
  match cs.takeWhile Char.isDigit with
  | [] => none
  | ds => some (ds, cs.dropWhile Char.isDigit)

/-- Splits a fraction off, if the text goes on with a point. -/
def fraction? : List Char → Option (Option (List Char) × List Char)
  | '.' :: cs => (digits? cs).map fun (ds, rest) => (some ds, rest)
  | cs => some (none, cs)

/-- Splits an exponent off, if the text goes on with its mark. -/
def exponent? (cs : List Char) : Option (Option Int × List Char) :=
  match cs with
  | c :: rest =>
    if c = 'e' ∨ c = 'E' then
      let (negative, rest) := splitSign rest
      (digits? rest).map fun (ds, rest) =>
        (some (if negative then -(digitsValue ds : Int) else digitsValue ds), rest)
    else some (none, cs)
  | [] => some (none, [])

/-- The number at the beginning of a text.  Only zero begins with the digit zero. -/
def read (cs : List Char) : Option (JsonNumber × List Char) := do
  let (negative, cs) := match cs with
    | '-' :: rest => (true, rest)
    | _ => (false, cs)
  let (whole, cs) ← match cs with
    | '0' :: rest => if rest.head?.any Char.isDigit then none else some (['0'], rest)
    | _ => digits? cs
  let (fraction, cs) ← fraction? cs
  let (exponent, cs) ← exponent? cs
  return ({ negative := negative, whole := whole, fraction := fraction, exponent := exponent }, cs)

end JsonNumber

/-! ## Writing -/

namespace Notation

/-- The notation of exported floats: positional from `0.00001` to below `10 ^ 16`, a point in every
positional number, and the even one of two equally near decimals. -/
def exported : Notation where
  positional point := -5 < point ∧ point ≤ 16
  wholeSuffix := ".0"
  tie := .even

end Notation

/-- A float in JSON, which has no numbers that are not finite. -/
def writeJsonFloat (x : Float) : String :=
  match FloatShape.ofFloat x with
  | .finite negative d => (if negative then "-" else "") ++ Notation.exported.magnitude d
  | _ => "null"

end Gauge
