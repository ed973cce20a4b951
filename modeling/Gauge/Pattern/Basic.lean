import Gauge.Pattern.CharSet

/-!
# Patterns

A pattern says which pieces of a text it matches.  A piece runs from one place of the text to
another; a place is the number of characters in front of it.  Sets of places are the bits of a
number, and a pattern maps the places where its pieces begin to the places where they end.

## Main definitions

* `Place` — a condition on a place, by the characters beside it.
* `Pattern` — a pattern.
* `Pattern.ends` — the ends of the pieces that begin at given places.
* `Pattern.isMatch` — whether a pattern matches a piece of a text.
-/

namespace Gauge

/-- A condition on a place.  Words are made of Unicode or of ASCII word characters. -/
inductive Place where
  | textStart
  | textEnd
  | lineStart
  | lineEnd
  /-- at the start of a line that may end with a carriage return and a line feed -/
  | crlfLineStart
  | crlfLineEnd
  | wordBoundary (unicode : Bool)
  | insideOrOutside (unicode : Bool)
  | wordStart (unicode : Bool)
  | wordEnd (unicode : Bool)
  | behindNoWord (unicode : Bool)
  | beforeNoWord (unicode : Bool)
  deriving DecidableEq

namespace Place

/-- Whether there is a character of a word on one side. -/
def isWord (unicode : Bool) (c : Option Char) : Bool :=
  c.any fun c => if unicode then Text.isWordChar c else c.isAlphanum || c = '_'

/-- Whether a condition holds between two characters; at either end of the text there is none. -/
def holds (before after : Option Char) : Place → Bool
  | textStart => before.isNone
  | textEnd => after.isNone
  | lineStart => before.isNone || before == some '\n'
  | lineEnd => after.isNone || after == some '\n'
  | crlfLineStart =>
    before.isNone || before == some '\n' || (before == some '\r' && after != some '\n')
  | crlfLineEnd =>
    after.isNone || after == some '\r' || (after == some '\n' && before != some '\r')
  | wordBoundary u => isWord u before != isWord u after
  | insideOrOutside u => isWord u before == isWord u after
  | wordStart u => !isWord u before && isWord u after
  | wordEnd u => isWord u before && !isWord u after
  | behindNoWord u => !isWord u before
  | beforeNoWord u => !isWord u after

/-- The places of a text where a condition holds, behind a first character. -/
def placesFrom (p : Place) (before : Option Char) : List Char → Nat
  | [] => (p.holds before none).toNat
  | c :: cs => (p.holds before (some c)).toNat + 2 * p.placesFrom (some c) cs

end Place

/-- The places of a text in front of a character of a set. -/
def CharSet.places (s : CharSet) : List Char → Nat
  | [] => 0
  | c :: cs => (s.contains c).toNat + 2 * s.places cs

/-- A pattern. -/
inductive Pattern where
  | empty
  | chars (s : CharSet)
  | place (p : Place)
  | seq (p q : Pattern)
  | alt (p q : Pattern)
  /-- so many pieces one after another, without a bound if there is no most -/
  | repeated (p : Pattern) (least : Nat) (most : Option Nat)
  deriving DecidableEq

namespace Pattern

/-- Applies a map of places at most so many times, until it changes nothing. -/
def iterate (f : Nat → Nat) : Nat → Nat → Nat
  | 0, places => places
  | n + 1, places => if f places = places then places else iterate f n (f places)

/-- The ends of the pieces of a text that begin at the given places.  A text has one place more than
it has characters; as many repetitions reach everything that any number of them does. -/
def ends (text : List Char) : Pattern → Nat → Nat
  | empty, places => places
  | chars s, places => 2 * (places &&& s.places text)
  | place p, places => places &&& p.placesFrom none text
  | seq p q, places => ends text q (ends text p places)
  | alt p q, places => ends text p places ||| ends text q places
  | repeated p least most, places =>
    let enough := text.length + 1
    let begun := iterate (ends text p) (min least enough) places
    let more := (most.map (· - least)).getD enough
    iterate (fun places => places ||| ends text p places) (min more enough) begun

/-- Whether a pattern matches some piece of a text. -/
def isMatch (p : Pattern) (text : String) : Bool :=
  let cs := text.toList
  p.ends cs (1 <<< (cs.length + 1) - 1) ≠ 0

/-! ## Size -/

/-- How many characters the pattern names, repetitions written out. -/
def size : Pattern → Nat
  | empty => 0
  | chars _ => 1
  | place _ => 1
  | seq p q => p.size + q.size
  | alt p q => p.size + q.size + 1
  | repeated p least most => p.size * max 1 (most.getD least) + 1

/-- The largest size in bytes of a pattern that is made ready for use. -/
def byteLimit : Nat := 10 * 1048576

/-- How many bytes each character of a pattern takes. -/
def bytesPerChar : Nat := 32

def isTooLarge (p : Pattern) : Bool := byteLimit < bytesPerChar * p.size

end Pattern

end Gauge
