/-!
# Little-endian words

Whole numbers as a fixed number of bytes, the lowest first.

## Main definitions

* `bytesOf width n` — the lowest `width` bytes of a number.
* `ofBytes` — the number that bytes stand for.
* `ofOffset`, `offsetOf` — signed 32-bit distances, in two's complement.
-/

namespace Gauge.LittleEndian

/-- The lowest `width` bytes of a number, the lowest first. -/
def bytesOf : (width : Nat) → Nat → List UInt8
  | 0, _ => []
  | width + 1, n => UInt8.ofNat n :: bytesOf width (n / 256)

/-- The number that bytes stand for, the lowest first. -/
def ofBytes : List UInt8 → Nat
  | [] => 0
  | b :: bs => b.toNat + 256 * ofBytes bs

/-- A signed distance as a 32-bit word. -/
def ofOffset (distance : Int) : Nat := (distance % UInt32.size).toNat

/-- The signed distance of a 32-bit word. -/
def offsetOf (word : Nat) : Int :=
  if word < UInt32.size / 2 then word else (word : Int) - UInt32.size

/-- The word of a signed 64-bit value. -/
def ofValue (v : Int64) : Nat := v.toUInt64.toNat

/-- The signed 64-bit value of a word. -/
def valueOf (word : Nat) : Int64 := (UInt64.ofNat word).toInt64

@[simp] theorem length_bytesOf (width n : Nat) : (bytesOf width n).length = width := by
  induction width generalizing n with
  | zero => rfl
  | succ width ih => simp [bytesOf, ih]

@[simp] theorem valueOf_ofValue (v : Int64) : valueOf (ofValue v) = v := by
  simp [valueOf, ofValue]

end Gauge.LittleEndian
