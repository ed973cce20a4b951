import Gauge.Text.CodePoints

/-!
# White space

The Unicode property *White_Space*, and texts without it at their ends.

## Main definitions

* `isBlank` — whether a character is white space.
* `trim` — a text without white space at either end.
-/

namespace Gauge.Text

/-- The code points of white space. -/
def blank : CodePoints := ⟨#[
  (0x9, 0xd), (0x20, 0x20), (0x85, 0x85), (0xa0, 0xa0), (0x1680, 0x1680), (0x2000, 0x200a),
  (0x2028, 0x2029), (0x202f, 0x202f), (0x205f, 0x205f), (0x3000, 0x3000)]⟩

def isBlank (c : Char) : Bool := blank.contains c

/-- A list of characters without white space at either end. -/
def trimChars (cs : List Char) : List Char :=
  ((cs.dropWhile isBlank).reverse.dropWhile isBlank).reverse

/-- A text without white space at either end. -/
def trim (text : String) : String := String.ofList (trimChars text.toList)

end Gauge.Text
