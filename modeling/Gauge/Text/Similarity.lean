/-!
# Similar words

How much two words have in common, between zero and one: the mean of the shares of each word that is
found in the other at nearly the same place, and of the share of those that are in order.

## Main definitions

* `similarity` — the measure.
-/

namespace Gauge.Text

/-- The first unused place with a character, in a window that begins at the given place. -/
def findPlace (c : Char) (used : List Nat) (low : Nat) : List Char → Option Nat
  | [] => none
  | d :: ds => if d = c ∧ low ∉ used then some low else findPlace c used (low + 1) ds

/-- Pairs the characters of a word, from the given place on, with places in the other word at most
`range` away.  Every place of the other word is used once; `used` holds those that are. -/
def pairUp (other : List Char) (range : Nat) :
    Nat → List Nat → List Char → List Char × List Nat
  | _, used, [] => ([], used)
  | i, used, c :: cs =>
    let low := i - range
    match findPlace c used low ((other.drop low).take (i + range + 1 - low)) with
    | some j =>
      let (found, used) := pairUp other range (i + 1) (j :: used) cs
      (c :: found, used)
    | none => pairUp other range (i + 1) used cs

/-- How similar two words are.  Two empty words are equal, and an empty one is like no other. -/
def similarity (a b : String) : Float :=
  let cs := a.toList
  let ds := b.toList
  if cs.isEmpty && ds.isEmpty then 1.0
  else
    let (found, used) := pairUp ds (max cs.length ds.length / 2 - 1) 0 [] cs
    let places := (List.range ds.length).filter used.contains
    let there := places.filterMap fun j => ds[j]?
    let swaps := (found.zip there).countP fun p => p.1 ≠ p.2
    let m := Float.ofNat found.length
    if found.isEmpty then 0.0
    else
      (m / Float.ofNat cs.length + m / Float.ofNat ds.length +
        Float.ofNat (found.length - swaps / 2) / m) / 3.0

end Gauge.Text
