import Gauge.Decimal.Shortest

/-!
# Reading decimals

From a decimal numeral to the nearest binary floating point value, with a single rounding.

## Main definitions

* `nearestFloat num den` — the float nearest to a fraction, a half going to the even mantissa.
* `Decimal.toFloat` — the float nearest to a decimal.
* `readFloat?` — the literals of floats: numerals `digit+ ('.' digit*)? | '.' digit+` with an
  optional exponent, and words for infinity and for what is no number, all behind an optional sign.
-/

namespace Gauge

/-- The bits of infinity, one above those of the largest finite float. -/
def infinityBits : Nat := (exponentSize - 1) * fractionSize

/-- The exponent of the last place in which a positive fraction is rounded: the fraction has 53
binary places from there, except below the normal range. -/
def lastPlace (num den : Nat) : Int :=
  let guess : Int := (num.log2 : Int) - (den.log2 : Int) - 53
  let e := if den <<< (guess + 53).toNat ≤ num <<< (-(guess + 53)).toNat then guess + 1 else guess
  max e (-1074)

/-- The bits of the float nearest to a fraction.  A mantissa that rounds up to the next power of two
carries into the exponent field, and beyond the largest float lies infinity. -/
def nearestBits (num den : Nat) : Nat :=
  if num = 0 then 0
  else
    let e := lastPlace num den
    let mantissa := roundHalfEven (num <<< (-e).toNat) (den <<< e.toNat)
    min ((e + 1074).toNat * fractionSize + mantissa) infinityBits

/-- The float nearest to a fraction. -/
def nearestFloat (num den : Nat) : Float := Float.ofBits (nearestBits num den).toUInt64

namespace Decimal

/-- The float nearest to a decimal.  Decimals outside of the range of floats are settled by their
size, without computing their power of ten. -/
def toFloat (d : Decimal) : Float :=
  let size : Int := digitCount d.digits + d.exponent
  if d.digits = 0 ∨ size < -330 then 0.0
  else if 330 < size then Float.ofBits infinityBits.toUInt64
  else nearestFloat (d.digits * Nat.pow 10 d.exponent.toNat) (Nat.pow 10 (-d.exponent).toNat)

end Decimal

/-- The whole number that decimal digits denote. -/
def digitsValue (digits : List Char) : Nat :=
  digits.foldl (fun n c => 10 * n + (c.toNat - '0'.toNat)) 0

/-- Splits an optional sign off; the flag says whether it is a minus. -/
def splitSign : List Char → Bool × List Char
  | '-' :: rest => (true, rest)
  | '+' :: rest => (false, rest)
  | cs => (false, cs)

/-- The decimal of its digits before and after the point. -/
def Decimal.ofPlaces (whole fraction : List Char) : Decimal where
  digits := digitsValue (whole ++ fraction)
  exponent := -(fraction.length : Int)

def Decimal.shift (d : Decimal) (n : Int) : Decimal := { d with exponent := d.exponent + n }

/-- Splits the digits behind a point off, if the text goes on with one. -/
def splitFraction : List Char → List Char × List Char
  | '.' :: rest => (rest.takeWhile Char.isDigit, rest.dropWhile Char.isDigit)
  | cs => ([], cs)

/-- The exponent at the end of a number, if there is one: its mark, an optional sign and digits. -/
def readExponent? : List Char → Option Int
  | [] => some 0
  | mark :: rest =>
    let (negative, digits) := splitSign rest
    if (mark = 'e' ∨ mark = 'E') ∧ digits ≠ [] ∧ digits.all Char.isDigit then
      some (if negative then -(digitsValue digits : Int) else digitsValue digits)
    else none

/-- A decimal without a sign: digits with an optional point, at least one digit, and an optional
exponent. -/
def readUnsigned? (cs : List Char) : Option Decimal :=
  let whole := cs.takeWhile Char.isDigit
  let (fraction, rest) := splitFraction (cs.dropWhile Char.isDigit)
  if whole = [] ∧ fraction = [] then none
  else (readExponent? rest).map fun n => (Decimal.ofPlaces whole fraction).shift n

/-- What the words for infinity and for what is no number denote, in capital or small letters. -/
def readWord? (cs : List Char) : Option Float :=
  let word := cs.map Char.toLower
  if word = ['i', 'n', 'f'] ∨ word = ['i', 'n', 'f', 'i', 'n', 'i', 't', 'y'] then
    some (Float.ofBits infinityBits.toUInt64)
  else if word = ['n', 'a', 'n'] then some notANumber
  else none

def withSign (negative : Bool) (x : Float) : Float := if negative then -x else x

/-- The float of a literal: an optional sign, and a number or a word; a minus makes zero negative. -/
def readFloat? (cs : List Char) : Option Float :=
  let (negative, rest) := splitSign cs
  ((readWord? rest).or ((readUnsigned? rest).map Decimal.toFloat)).map (withSign negative)

end Gauge
