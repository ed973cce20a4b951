import Gauge.Text.Blank
import Gauge.Text.Fold
import Gauge.Text.Word

/-!
# Sets of characters in patterns

A pattern describes sets of characters by ranges, by Unicode or ASCII classes, and by operations on
other sets.

## Main definitions

* `CharSet` — the description of a set.
* `CharSet.contains` — whether a character is in it.
* `CharSet.named?` — the ASCII classes by their names.
-/

namespace Gauge

/-- A description of a set of characters. -/
inductive CharSet where
  /-- the code points between two, both included -/
  | range (low high : Nat)
  | blank
  | digit
  | wordChar
  | union (a b : CharSet)
  | inter (a b : CharSet)
  | diff (a b : CharSet)
  /-- what is in exactly one of two sets -/
  | symmDiff (a b : CharSet)
  | compl (a : CharSet)
  /-- all cases of the letters of a set -/
  | anyCase (a : CharSet)
  /-- all cases of the ASCII letters of a set -/
  | anyAsciiCase (a : CharSet)
  deriving DecidableEq

namespace CharSet

/-- The other case of an ASCII letter. -/
def otherAsciiCase (c : Char) : Char :=
  if c.isUpper then c.toLower else if c.isLower then c.toUpper else c

def contains : CharSet → Char → Bool
  | range low high, c => low ≤ c.toNat && c.toNat ≤ high
  | blank, c => Text.isBlank c
  | digit, c => Text.isDecimalDigit c
  | wordChar, c => Text.isWordChar c
  | union a b, c => a.contains c || b.contains c
  | inter a b, c => a.contains c && b.contains c
  | diff a b, c => a.contains c && !b.contains c
  | symmDiff a b, c => a.contains c != b.contains c
  | compl a, c => !a.contains c
  | anyCase a, c => (Text.caseVariants c).any a.contains
  | anyAsciiCase a, c => a.contains c || a.contains (otherAsciiCase c)

def empty : CharSet := range 1 0

def single (c : Char) : CharSet := range c.toNat c.toNat

def unions : List CharSet → CharSet
  | [] => empty
  | [s] => s
  | s :: ss => union s (unions ss)

/-- The set of characters between pairs of characters, both included. -/
def ranges (pairs : List (Char × Char)) : CharSet :=
  unions (pairs.map fun p => range p.1.toNat p.2.toNat)

/-- The ASCII classes. -/
def asciiClasses : List (String × CharSet) :=
  [ ("alnum", ranges [('0', '9'), ('A', 'Z'), ('a', 'z')]),
    ("alpha", ranges [('A', 'Z'), ('a', 'z')]),
    ("ascii", range 0 0x7f),
    ("blank", ranges [('\t', '\t'), (' ', ' ')]),
    ("cntrl", union (range 0 0x1f) (range 0x7f 0x7f)),
    ("digit", ranges [('0', '9')]),
    ("graph", ranges [('!', '~')]),
    ("lower", ranges [('a', 'z')]),
    ("print", ranges [(' ', '~')]),
    ("punct", ranges [('!', '/'), (':', '@'), ('[', '\x60'), ('\x7b', '~')]),
    ("space", union (range 9 13) (single ' ')),
    ("upper", ranges [('A', 'Z')]),
    ("word", ranges [('0', '9'), ('A', 'Z'), ('_', '_'), ('a', 'z')]),
    ("xdigit", ranges [('0', '9'), ('A', 'F'), ('a', 'f')]) ]

/-- The ASCII class of a name. -/
def named? (name : String) : Option CharSet := asciiClasses.lookup name

end CharSet

end Gauge
