import Gauge.Proofs.Store.Archive
import Gauge.Store.Frame

/-!
# Streams of frames

Records are written one after another into a stream, and the stream may be cut anywhere.  Reading
what is left gives the records whose whole frame is left, in order, and then one fault that tells
a cut between two frames, or inside the length of one, from a cut inside a payload.

## Main definitions

* `Frame.Fits` — a record whose frame is written.
* `Frame.answers`, `Frame.stream` — what a writer answers to records, and the bytes it leaves.
* `Frame.wholeWithin` — the records whose whole frame lies within the first bytes of a stream.

## Main statements

* `read_frame_append` — a frame is read back, and what follows it is left alone.
* `readAll_take_stream` — a stream cut anywhere gives back the records that are whole in it.
-/

namespace Gauge.Frame

open LittleEndian

/-! ## One frame -/

/-- The archive of the record is not too large for a frame. -/
def Fits (r : Record) : Prop := Archive.size r ≤ FrameFault.largest

instance (r : Record) : Decidable (Fits r) := inferInstanceAs (Decidable (_ ≤ _))

/-- The frame of a record that fits. -/
def frame (r : Record) : List UInt8 := bytesOf headerSize (Archive.size r) ++ Archive.encode r

def frameSize (r : Record) : Nat := headerSize + Archive.size r

@[simp] theorem length_frame (r : Record) : (frame r).length = frameSize r := by
  simp [frame, frameSize]

theorem encode_of_fits {r : Record} (h : Fits r) : encode r = .ok (frame r) := by
  simp only [encode]
  rw [if_neg (Nat.not_lt.2 h)]
  rfl

theorem encode_of_not_fits {r : Record} (h : ¬ Fits r) :
    encode r = .error (.tooLarge (Archive.size r)) := by
  simp only [encode]
  rw [if_pos (Nat.not_le.1 h)]

/-- The fault that a cut leaves after the last whole frame, `n` bytes being left of the next. -/
def cutFault (n : Nat) : FrameFault := if n < headerSize then .endOfStream else .truncated

theorem ofBytes_header {r : Record} (h : Fits r) :
    ofBytes (bytesOf headerSize (Archive.size r)) = Archive.size r := by
  simp only [Fits, FrameFault.largest] at h
  rw [Archive.ofBytes_bytesOf, headerSize]
  omega

/-- A frame is read back to its record, and what follows it is left alone. -/
theorem read_frame_append {r : Record} (h : Fits r) (rest : List UInt8) :
    read (frame r ++ rest) = .ok (r, rest) := by
  have hpos : Archive.size r ≠ 0 := by
    simp only [Archive.size, Archive.cell]
    omega
  have hsmall : Archive.size r ≤ 2 ^ 31 := by
    simp only [Fits, FrameFault.largest] at h
    omega
  have htake : (frame r ++ rest).take headerSize = bytesOf headerSize (Archive.size r) := by
    rw [frame, List.append_assoc, List.take_left' (length_bytesOf _ _)]
  have hdrop : (frame r ++ rest).drop headerSize = Archive.encode r ++ rest := by
    rw [frame, List.append_assoc, List.drop_left' (length_bytesOf _ _)]
  have hpayload : (Archive.encode r ++ rest).take (Archive.size r) = Archive.encode r :=
    List.take_left' (Archive.length_encode r)
  have hrest : (Archive.encode r ++ rest).drop (Archive.size r) = rest :=
    List.drop_left' (Archive.length_encode r)
  simp only [read, htake, hdrop, ofBytes_header h, hpayload, hrest, length_bytesOf,
    Archive.length_encode, Archive.decode?_encode r hsmall]
  rw [if_neg (by omega), if_neg (Nat.not_lt.2 h), if_neg hpos, if_neg (by omega)]

/-- A frame that is cut short is not read: its length may be cut, or its payload. -/
theorem read_take_frame {r : Record} (h : Fits r) {k : Nat} (hk : k < frameSize r) :
    read ((frame r).take k) = .error (cutFault k) := by
  simp only [cutFault]
  by_cases hheader : k < headerSize
  · have hlen : (((frame r).take k).take headerSize).length < headerSize := by
      simp only [List.length_take]
      omega
    simp only [read, if_pos hlen, if_pos hheader]
  · have htake : ((frame r).take k).take headerSize = bytesOf headerSize (Archive.size r) := by
      rw [List.take_take, Nat.min_eq_left (Nat.not_lt.1 hheader), frame,
        List.take_left' (length_bytesOf _ _)]
    have hlen : (((frame r).take k).drop headerSize).length < Archive.size r := by
      simp only [frameSize] at hk
      simp only [List.length_drop, List.length_take]
      omega
    have hshort : ((((frame r).take k).drop headerSize).take (Archive.size r)).length
        < Archive.size r := by
      rw [List.length_take]
      omega
    simp only [read, htake, ofBytes_header h, length_bytesOf]
    rw [if_neg (by omega), if_neg (Nat.not_lt.2 h), if_neg (by omega), if_pos hshort,
      if_neg hheader]

/-! ## Streams -/

/-- What a writer answers to a record, and the bytes written by then. -/
def append (written : List UInt8) (r : Record) : Except FrameFault Unit × List UInt8 :=
  match encode r with
  | .ok frame => (.ok (), written ++ frame)
  | .error fault => (.error fault, written)

/-- What a writer answers to records in order, and all bytes written by then. -/
def appendAll (written : List UInt8) : List Record → List (Except FrameFault Unit) × List UInt8
  | [] => ([], written)
  | r :: rs =>
    let (answer, written) := append written r
    let (answers, written) := appendAll written rs
    (answer :: answers, written)

/-- What a writer answers to records in order. -/
def answers (rs : List Record) : List (Except FrameFault Unit) := (appendAll [] rs).1

/-- All bytes that a writer leaves for records in order. -/
def stream (rs : List Record) : List UInt8 := (appendAll [] rs).2

def accepted (rs : List Record) : List Record := rs.filter fun r => Fits r

/-- The bytes that the frames of records take. -/
def span (rs : List Record) : Nat := (rs.map frameSize).sum

/-- The records whose whole frame lies within the first `k` bytes of the stream of `rs`. -/
def wholeWithin (k : Nat) (rs : List Record) : List Record :=
  (rs.zipIdx.filter fun e => span (rs.take (e.2 + 1)) ≤ k).map (·.1)

theorem appendAll_eq (written : List UInt8) (rs : List Record) :
    appendAll written rs =
      (rs.map fun r => if Fits r then .ok () else .error (.tooLarge (Archive.size r)),
        written ++ (accepted rs).flatMap frame) := by
  induction rs generalizing written with
  | nil => simp [appendAll, accepted]
  | cons r rs ih =>
    by_cases h : Fits r
    · simp [appendAll, append, encode_of_fits h, ih, accepted, h]
    · simp [appendAll, append, encode_of_not_fits h, ih, accepted, h]

theorem stream_eq (rs : List Record) : stream rs = (accepted rs).flatMap frame := by
  rw [stream, appendAll_eq, List.nil_append]

theorem stream_append (rs ts : List Record) : stream (rs ++ ts) = stream rs ++ stream ts := by
  simp [stream_eq, accepted]

theorem stream_singleton_of_fits {r : Record} (h : Fits r) : stream [r] = frame r := by
  simp [stream_eq, accepted, h]

theorem stream_singleton_of_not_fits {r : Record} (h : ¬ Fits r) : stream [r] = [] := by
  simp [stream_eq, accepted, h]

theorem fits_of_mem_accepted {rs : List Record} {r : Record} (h : r ∈ accepted rs) : Fits r := by
  simpa using (List.mem_filter.1 h).2

@[simp] theorem span_cons (r : Record) (rs : List Record) :
    span (r :: rs) = frameSize r + span rs := by
  simp [span]

@[simp] theorem length_flatMap_frame (rs : List Record) :
    (rs.flatMap frame).length = span rs := by
  simp [span, List.length_flatMap]

theorem wholeWithin_cons (k : Nat) (r : Record) (rs : List Record) :
    wholeWithin k (r :: rs) =
      if frameSize r ≤ k then r :: wholeWithin (k - frameSize r) rs else [] := by
  have hshift : (rs.zipIdx 1).filter (fun e => span ((r :: rs).take (e.2 + 1)) ≤ k)
      = (rs.zipIdx.filter fun e => frameSize r + span (rs.take (e.2 + 1)) ≤ k).map
          fun e => (e.1, e.2 + 1) := by
    rw [List.zipIdx_succ, List.filter_map]
    simp [Function.comp_def]
  have hhead : span ((r :: rs).take 1) = frameSize r := by simp [span]
  simp only [wholeWithin]
  rw [List.zipIdx_cons, List.filter_cons]
  simp only [Nat.zero_add, hshift, hhead]
  by_cases h : frameSize r ≤ k
  · have hsub : ∀ n, frameSize r + n ≤ k ↔ n ≤ k - frameSize r := by omega
    simp [h, hsub, Function.comp_def]
  · have hnone : ∀ n, ¬ frameSize r + n ≤ k := by omega
    simp [h, hnone]

theorem readAll_of_ok {bytes rest : List UInt8} {r : Record} (h : read bytes = .ok (r, rest)) :
    readAll bytes = (r :: (readAll rest).1, (readAll rest).2) := by
  rw [readAll]
  split
  · simp_all
  · next r' rest' h' =>
    rw [h] at h'
    cases h'
    rfl

theorem readAll_of_error {bytes : List UInt8} {fault : FrameFault}
    (h : read bytes = .error fault) : readAll bytes = ([], fault) := by
  rw [readAll]
  split <;> simp_all

/-- Frames cut anywhere are read back as far as they are whole. -/
theorem readAll_take_frames (rs : List Record) (hfits : ∀ r ∈ rs, Fits r) {k : Nat}
    (hk : k ≤ span rs) :
    readAll ((rs.flatMap frame).take k) =
      (wholeWithin k rs, cutFault (k - span (wholeWithin k rs))) := by
  induction rs generalizing k with
  | nil =>
    have hempty : read [] = .error .endOfStream := rfl
    simp [readAll_of_error hempty, wholeWithin, span, cutFault] at hk ⊢
    simp [hk, headerSize]
  | cons r rs ih =>
    have hr : Fits r := hfits r List.mem_cons_self
    have hrs : ∀ r ∈ rs, Fits r := fun s hs => hfits s (List.mem_cons_of_mem r hs)
    rw [span_cons] at hk
    rw [wholeWithin_cons, List.flatMap_cons]
    by_cases hwhole : frameSize r ≤ k
    · have hsplit : (frame r ++ rs.flatMap frame).take k
          = frame r ++ (rs.flatMap frame).take (k - frameSize r) := by
        rw [List.take_append, length_frame,
          List.take_of_length_le (by rw [length_frame]; exact hwhole)]
      rw [hsplit, readAll_of_ok (read_frame_append hr _), ih hrs (by omega), if_pos hwhole,
        span_cons, Nat.sub_sub]
    · have hcut : (frame r ++ rs.flatMap frame).take k = (frame r).take k :=
        List.take_append_of_le_length (by rw [length_frame]; omega)
      rw [hcut, readAll_of_error (read_take_frame hr (by omega)), if_neg hwhole]
      simp [span]

/-- Frames within all of their stream are whole. -/
theorem wholeWithin_span (rs : List Record) : wholeWithin (span rs) rs = rs := by
  induction rs with
  | nil => rfl
  | cons r rs ih => rw [wholeWithin_cons, span_cons, if_pos (by omega), Nat.add_sub_cancel_left, ih]

/-- **A stream cut anywhere gives back the records that are whole in it.**  The writer refuses a
record exactly when it is too large, and then leaves no bytes.  After the whole records the reader
finds the end of the stream when fewer bytes than a length are left, and a payload cut short
otherwise; the uncut stream gives back every record that was not refused. -/
theorem readAll_take_stream (rs : List Record) (k : Nat) (hk : k ≤ (stream rs).length) :
    answers rs = (rs.map fun r =>
        if Fits r then .ok () else .error (.tooLarge (Archive.size r))) ∧
      stream rs = stream (accepted rs) ∧
      readAll ((stream rs).take k) = (wholeWithin k (accepted rs),
        if k - span (wholeWithin k (accepted rs)) < headerSize then .endOfStream
        else .truncated) ∧
      readAll (stream rs) = (accepted rs, .endOfStream) := by
  have hfits : ∀ r ∈ accepted rs, Fits r := fun r => fits_of_mem_accepted
  have hstream := stream_eq rs
  have htwice : accepted (accepted rs) = accepted rs := by simp [accepted]
  have hlen : (stream rs).length = span (accepted rs) := by rw [hstream, length_flatMap_frame]
  refine ⟨?_, ?_, ?_, ?_⟩
  · rw [answers, appendAll_eq]
  · rw [hstream, stream_eq, htwice]
  · rw [hstream, readAll_take_frames _ hfits (hlen ▸ hk)]
    rfl
  · have hall := readAll_take_frames _ hfits (le_refl (span (accepted rs)))
    rw [List.take_of_length_le (by rw [length_flatMap_frame]), wholeWithin_span,
      Nat.sub_self] at hall
    rw [hstream, hall]
    rfl

/-- A cut inside the second payload, the names being as long as an entry holds and longer. -/
theorem readAll_take_stream_in_payload :
    let short : Record := ⟨1, [("seven__", 5)]⟩
    let long : Record := ⟨2, [("eight___", 6), ("", -1), ("", 0)]⟩
    90 ≤ (stream [short, long]).length ∧
      readAll ((stream [short, long]).take 90) = ([short], .truncated) := by
  intro short long
  have hk : 90 ≤ (stream [short, long]).length := by decide +kernel
  have hwhole : wholeWithin 90 (accepted [short, long]) = [short] := by decide +kernel
  obtain ⟨-, -, hread, -⟩ := readAll_take_stream [short, long] 90 hk
  rw [hwhole, if_neg (by decide +kernel)] at hread
  exact ⟨hk, hread⟩

end Gauge.Frame
