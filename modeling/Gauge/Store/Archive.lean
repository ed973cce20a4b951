import Gauge.Store.LittleEndian
import Gauge.Store.Sample

/-!
# Archives

The payload of a frame.  It starts with the long names, goes on with one entry per value, and ends
with a root that says where the entries are.  A name of at most seven bytes stands in its entry; a
longer one is reached by a distance counted back from the entry.

```text
names, padded to a multiple of 8 | entry … entry | root
entry: 8 bytes name, 8 bytes value
name:  its bytes padded to 7, length byte | 4 bytes length, 4 bytes distance (negative)
root:  8 bytes start, 4 bytes distance to the first entry, 4 bytes number of entries
```

## Main definitions

* `Archive.size` — how long the archive of a record is, known without writing it.
* `Archive.encode` — the archive of a record.
* `Archive.decode?` — the record of an archive, if every part lies where it may.
-/

namespace Gauge.Archive

open LittleEndian

/-- The bytes of an entry and of the root. -/
def cell : Nat := 16

/-- The longest name that stands in its entry. -/
def inlineCapacity : Nat := 7

def utf8 (text : String) : List UInt8 := text.toUTF8.data.toList

/-- The least multiple of eight that is not below a size. -/
def aligned (n : Nat) : Nat := (n + 7) / 8 * 8

/-! ## Size -/

/-- The bytes that a name takes outside of its entry. -/
def outsideSize (name : String) : Nat :=
  if name.utf8ByteSize ≤ inlineCapacity then 0 else name.utf8ByteSize

def namesSize : List (String × Int64) → Nat
  | [] => 0
  | e :: values => outsideSize e.1 + namesSize values

def entriesAt (values : List (String × Int64)) : Nat := aligned (namesSize values)

def rootAt (values : List (String × Int64)) : Nat := entriesAt values + cell * values.length

def size (r : Record) : Nat := rootAt r.values + cell

/-! ## Writing -/

/-- The bytes that a name has outside of its entry. -/
def outside (name : String) : List UInt8 :=
  if name.utf8ByteSize ≤ inlineCapacity then [] else utf8 name

/-- The name part of an entry at `at_`, the bytes of a long name being at `nameAt`. -/
def nameCell (at_ nameAt : Nat) (name : String) : List UInt8 :=
  let n := name.utf8ByteSize
  if n ≤ inlineCapacity then
    utf8 name ++ List.replicate (inlineCapacity - n) 0 ++ bytesOf 1 n
  else bytesOf 4 n ++ bytesOf 4 (ofOffset ((nameAt : Int) - at_))

/-- The entries from `at_` on, the next long name being at `nameAt`. -/
def entryBytes (at_ nameAt : Nat) : List (String × Int64) → List UInt8
  | [] => []
  | (name, value) :: rest =>
    nameCell at_ nameAt name ++ bytesOf 8 (ofValue value) ++
      entryBytes (at_ + cell) (nameAt + outsideSize name) rest

/-- The archive of a record. -/
def encode (r : Record) : List UInt8 :=
  let names := r.values.flatMap fun e => outside e.1
  let first := entriesAt r.values
  let root := rootAt r.values
  names ++ List.replicate (first - namesSize r.values) 0 ++
    entryBytes first 0 r.values ++
    bytesOf 8 (ofValue r.start) ++ bytesOf 4 (ofOffset ((first : Int) - (root + 8))) ++
    bytesOf 4 r.values.length

/-! ## Reading -/

/-- The bytes `[from_, from_ + length)` of a payload. -/
def slice (payload : List UInt8) (from_ length : Nat) : List UInt8 :=
  (payload.drop from_).take length

/-- The number in the bytes `[from_, from_ + length)` of a payload. -/
def word (payload : List UInt8) (from_ length : Nat) : Nat := ofBytes (slice payload from_ length)

/-- The text of bytes, if they are UTF-8. -/
def text? (bytes : List UInt8) : Option String := String.fromUTF8? ⟨bytes.toArray⟩

/-- The name of the entry at `at_`, and where the next long name may start.  Long names lie in order
between `lowest` and the entries; a short name takes as many bytes as its length byte says, counted
from the entry. -/
def readName? (payload : List UInt8) (first lowest at_ : Nat) : Option (String × Nat) :=
  let tag := word payload (at_ + inlineCapacity) 1
  if tag < 128 then
    if at_ + tag ≤ payload.length then
      (text? (slice payload at_ tag)).map (·, lowest)
    else none
  else
    let length := word payload at_ 4
    let nameAt := (at_ : Int) + offsetOf (word payload (at_ + 4) 4)
    if (lowest : Int) ≤ nameAt ∧ nameAt + length ≤ first then
      (text? (slice payload nameAt.toNat length)).map (·, nameAt.toNat + length)
    else none

/-- Reads `count` entries from `at_` on. -/
def readEntries? (payload : List UInt8) (first : Nat) :
    (count lowest at_ : Nat) → Option (List (String × Int64))
  | 0, _, _ => some []
  | count + 1, lowest, at_ =>
    match readName? payload first lowest at_ with
    | none => none
    | some (name, lowest') =>
      (readEntries? payload first count lowest' (at_ + cell)).map
        ((name, valueOf (word payload (at_ + 8) 8)) :: ·)

/-- The record of an archive.  The root is the last cell; archive and entries are aligned to eight
bytes, and the entries lie between the start of the archive and its root. -/
def decode? (payload : List UInt8) : Option Record :=
  if payload.length < cell ∨ payload.length % 8 ≠ 0 then none
  else
    let root := payload.length - cell
    let first := (root + 8 : Int) + offsetOf (word payload (root + 8) 4)
    let count := word payload (root + 12) 4
    if 0 ≤ first ∧ first % 8 = 0 ∧ first + cell * count ≤ root then
      (readEntries? payload first.toNat count 0 first.toNat).map
        fun values => { start := valueOf (word payload root 8), values := values }
    else none

end Gauge.Archive
