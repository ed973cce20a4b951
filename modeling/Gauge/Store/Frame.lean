import Gauge.Store.Archive

/-!
# Frames

A spool is a stream of frames: four bytes with the length of the payload, then the payload, the
archive of one record.

## Main definitions

* `Frame.encode` — the frame of a record that is not too large.
* `Frame.read` — the first record of a stream, and the rest of the stream.
* `Frame.readAll` — the records of a stream up to the first fault.
-/

namespace Gauge.Frame

open LittleEndian

/-- The bytes in front of a payload. -/
def headerSize : Nat := 4

/-- The frame of a record.  Its size is checked before anything is written. -/
def encode (r : Record) : Except FrameFault (List UInt8) :=
  let size := Archive.size r
  if FrameFault.largest < size then .error (.tooLarge size)
  else .ok (bytesOf headerSize size ++ Archive.encode r)

/-- The first record of a stream and what follows it.  A length that does not fit into a frame is
refused before the payload is looked at. -/
def read (bytes : List UInt8) : Except FrameFault (Record × List UInt8) :=
  let header := bytes.take headerSize
  if header.length < headerSize then .error .endOfStream
  else
    let size := ofBytes header
    let rest := bytes.drop headerSize
    if FrameFault.largest < size then .error (.tooLarge size)
    else if size = 0 then .error (.invalid .zeroLength)
    else
      let payload := rest.take size
      if payload.length < size then .error .truncated
      else
        match Archive.decode? payload with
        | none => .error .undecodable
        | some r => .ok (r, rest.drop size)

theorem length_of_read {bytes rest : List UInt8} {r : Record} (h : read bytes = .ok (r, rest)) :
    rest.length < bytes.length := by
  unfold read at h
  simp only at h
  split at h
  · cases h
  · next hlen =>
    split at h
    · cases h
    · split at h
      · cases h
      · split at h
        · cases h
        · split at h
          · cases h
          · injection h with h
            injection h with _ h
            subst h
            simp only [List.length_take, headerSize] at hlen
            simp only [List.length_drop, headerSize]
            omega

/-- The records of a stream, and the fault that ends it: the end of the stream if all is well. -/
def readAll (bytes : List UInt8) : List Record × FrameFault :=
  match h : read bytes with
  | .error fault => ([], fault)
  | .ok (r, rest) =>
    have := length_of_read h
    let (rs, fault) := readAll rest
    (r :: rs, fault)
termination_by bytes.length

end Gauge.Frame
