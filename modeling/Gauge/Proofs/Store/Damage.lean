import Gauge.Proofs.Run.Count

/-!
# Reading a damaged spool

The file of a sealed spool can be changed behind its back.  A walk over the samples then goes by what
the file holds by now: it shows the records that can be read, up to as many as were written, and
after these one error if there are fewer.  It never asks for more, and an error is its last answer.
Where bytes were cut off the end, the records are the first ones that were written.

## Main definitions

* `Cursor.polls` — what a walk answers to one poll after another.
* `FrameFault.inSpool` — what a walk makes of the fault that ends a stream.
* `Reader.withSpool` — a store whose spool file was replaced.
* `Reader.Tells` — the samples that a store shows, and the fault that it ends with.

## Main statements

* `Cursor.polls_eq` — a walk that has ended stays ended.
* `Cursor.toList_spooled_eq` — a walk over any bytes, by the frames that can be read of them.
* `Reader.damaged_spool_is_told` — what a sealed spool shows of any bytes, and of a part of its own.
-/

namespace Gauge

/-! ## Polling -/

/-- What a walk answers to `n` polls, which may go on after its end. -/
def Cursor.polls (c : Cursor) : Nat → List (Option (Except StoreFault Sample))
  | 0 => []
  | n + 1 =>
    match c.next? with
    | none => none :: c.polls n
    | some (x, c') => some x :: c'.polls n

/-- **A walk that has ended stays ended**: poll for poll it gives its answers in order, and none
after the last one. -/
theorem Cursor.polls_eq (c : Cursor) (n : Nat) :
    c.polls n = (List.range n).map fun i => c.toList[i]? := by
  induction n generalizing c with
  | zero => rfl
  | succ n ih =>
    rw [List.range_succ_eq_map, List.map_cons, List.map_map, polls]
    cases hnext : c.next? with
    | none =>
      simp only [ih, toList_of_none hnext]
      rfl
    | some step =>
      obtain ⟨x, c'⟩ := step
      simp only [ih, toList_of_some hnext]
      rfl

/-! ## Walks over any bytes -/

/-- What a walk makes of the fault that ends a stream: more records were written, so the end of the
stream comes too early. -/
def FrameFault.inSpool : FrameFault → FrameFault
  | .endOfStream => .invalid .endedEarly
  | fault => fault

namespace Cursor

variable {bytes rest : List UInt8} {remaining : Nat}

theorem next?_of_ok {r : Record} (h : Frame.read bytes = .ok (r, rest)) :
    (spooled bytes (remaining + 1)).next? = some (.ok r.toSample, spooled rest remaining) := by
  simp only [next?, h]

theorem next?_of_error {fault : FrameFault} (h : Frame.read bytes = .error fault) :
    (spooled bytes (remaining + 1)).next? = some (.error (.codec fault.inSpool), ended) := by
  cases fault <;> simp only [next?, h, FrameFault.inSpool]

/-- A walk over any bytes shows the records that can be read of them, as many as are expected; if
there are fewer, the fault that ends the bytes comes last. -/
theorem toList_spooled_eq (bytes : List UInt8) (remaining : Nat) :
    (spooled bytes remaining).toList =
      ((Frame.readAll bytes).1.take remaining).map (fun r => .ok r.toSample) ++
        if remaining ≤ (Frame.readAll bytes).1.length then []
        else [.error (.codec (Frame.readAll bytes).2.inSpool)] := by
  induction remaining generalizing bytes with
  | zero =>
    rw [toList_of_none rfl]
    simp
  | succ remaining ih =>
    cases hread : Frame.read bytes with
    | ok step =>
      obtain ⟨r, rest⟩ := step
      rw [toList_of_some (next?_of_ok hread), ih, Frame.readAll_of_ok hread]
      simp
    | error fault =>
      rw [toList_of_some (next?_of_error hread), toList_of_none rfl,
        Frame.readAll_of_error hread]
      simp

end Cursor

/-! ## Whole frames -/

namespace Frame

/-- The stream of records that fit is that of their frames. -/
theorem stream_of_fits {rs : List Record} (h : ∀ r ∈ rs, Fits r) :
    stream rs = rs.flatMap frame ∧ (stream rs).length = span rs := by
  have haccepted : accepted rs = rs :=
    List.filter_eq_self.2 fun r hr => by simpa using h r hr
  have hstream : stream rs = rs.flatMap frame := by rw [stream_eq, haccepted]
  exact ⟨hstream, by rw [hstream, length_flatMap_frame]⟩

/-- The whole frames within the first bytes of a stream are its first frames. -/
theorem wholeWithin_eq_take (k : Nat) (rs : List Record) :
    wholeWithin k rs = rs.take (wholeWithin k rs).length := by
  induction rs generalizing k with
  | nil => rfl
  | cons r rs ih =>
    rw [wholeWithin_cons]
    by_cases h : frameSize r ≤ k
    · rw [if_pos h, List.length_cons, List.take_succ_cons, ← ih]
    · rw [if_neg h]
      rfl

/-- Fewer bytes than the frames of all records take do not hold all of them. -/
theorem length_wholeWithin_lt {k : Nat} {rs : List Record} (h : k < span rs) :
    (wholeWithin k rs).length < rs.length := by
  induction rs generalizing k with
  | nil => simp [span] at h
  | cons r rs ih =>
    rw [span_cons] at h
    rw [wholeWithin_cons]
    by_cases hr : frameSize r ≤ k
    · rw [if_pos hr, List.length_cons, List.length_cons]
      exact Nat.succ_lt_succ (ih (by omega))
    · rw [if_neg hr]
      exact Nat.succ_pos _

end Frame

theorem Sample.fits_toRecord {samples : List Sample} (h : ∀ s ∈ samples, Ledger.Fits s) :
    ∀ r ∈ samples.map Sample.toRecord, Frame.Fits r := by
  intro r hr
  obtain ⟨s, hs, rfl⟩ := List.mem_map.1 hr
  exact h s hs

/-! ## Sealed spools -/

namespace Reader

/-- A store whose spool file holds other bytes by now. -/
def withSpool (r : Reader) (bytes : List UInt8) : Reader :=
  { r with holding := .spooled (some bytes) }

theorem samples_withSpool (r : Reader) (bytes : List UInt8) :
    (r.withSpool bytes).samples = (Cursor.spooled bytes r.count).toList := rfl

/-- The first error stands for all values of a metric. -/
theorem mapM_append_error {ε α β : Type} (f : α → β) (xs : List α) (e : ε) :
    (xs.map Except.ok ++ [Except.error e]).mapM (fun x : Except ε α => x.map f) = .error e := by
  induction xs with
  | nil => rfl
  | cons x xs ih =>
    rw [List.map_cons, List.cons_append, List.mapM_cons, ih]
    rfl

/-- What a store tells of its samples: those that it shows, and the error that ends the walk over
them, if there is one.  An error is told wherever the samples are asked for. -/
structure Tells (r : Reader) (shown : List Sample) (fault : Option StoreFault) : Prop where
  samples : r.samples = shown.map .ok ++ fault.toList.map .error
  polls : ∀ n, r.cursor.polls n =
    (List.range n).map fun i => (shown.map .ok ++ fault.toList.map .error)[i]?
  values : ∀ name, r.values name = match fault with
    | none => .ok (shown.map fun s => s.values.find? name)
    | some fault => .error fault
  timestamps : r.timestamps = (shown.map fun s => .ok s.start) ++ fault.toList.map .error

theorem tells_of_samples {r : Reader} {shown : List Sample} {fault : Option StoreFault}
    (h : r.samples = shown.map .ok ++ fault.toList.map .error) : r.Tells shown fault where
  samples := h
  polls := fun n => by
    rw [Cursor.polls_eq, ← h]
    rfl
  values := fun name => by
    rw [Reader.values, h]
    cases fault with
    | none => simpa using mapM_map_ok (fun s : Sample => s.values.find? name) shown
    | some fault => exact mapM_append_error _ shown fault
  timestamps := by
    rw [Reader.timestamps, h, List.map_append, List.map_map, List.map_map]
    rfl

/-- Over any bytes a store shows no more samples than were written, and tells an error exactly if it
shows fewer. -/
theorem exists_tells_withSpool (r : Reader) (bytes : List UInt8) :
    ∃ shown fault, (r.withSpool bytes).Tells shown fault ∧ shown.length ≤ r.count ∧
      (fault.isSome ↔ shown.length < r.count) := by
  refine ⟨((Frame.readAll bytes).1.take r.count).map Record.toSample,
    if r.count ≤ (Frame.readAll bytes).1.length then none
    else some (.codec (Frame.readAll bytes).2.inSpool), tells_of_samples ?_, ?_, ?_⟩
  · rw [samples_withSpool, Cursor.toList_spooled_eq, List.map_map]
    split <;> rfl
  · simp
  · rw [List.length_map, List.length_take]
    split <;> simp <;> omega

/-- A spool is sealed as it was written. -/
theorem holding_of_ofSpool {stream : List UInt8} {keys : NameSet} {count : Nat} {r : Reader}
    (h : ofSpool stream keys count = .ok r) : r.holding = .spooled (some stream) := by
  rw [ofSpool] at h
  cases htally : tally Named.empty (Cursor.spooled stream count).toList with
  | ok t =>
    rw [htally] at h
    cases h
    rfl
  | error fault =>
    rw [htally] at h
    cases h

/-- Of the first bytes of its own spool a store shows the samples whose frames are whole. -/
theorem tells_take_stream {r : Reader} {written : List Sample}
    (hfits : ∀ s ∈ written, Ledger.Fits s) (hcount : r.count = written.length) {k : Nat}
    (hk : k ≤ (Frame.stream (written.map Sample.toRecord)).length) :
    (r.withSpool ((Frame.stream (written.map Sample.toRecord)).take k)).Tells
      (written.take (Frame.wholeWithin k (written.map Sample.toRecord)).length)
      (if k = (Frame.stream (written.map Sample.toRecord)).length then none
        else some (.codec (Frame.cutFault
          (k - Frame.span (Frame.wholeWithin k (written.map Sample.toRecord)))).inSpool)) := by
  refine tells_of_samples ?_
  have hrecordsFit := Sample.fits_toRecord hfits
  generalize hrecords : written.map Sample.toRecord = records at hk hrecordsFit ⊢
  obtain ⟨hstream, hlength⟩ := Frame.stream_of_fits hrecordsFit
  have hwritten : records.length = written.length := by rw [← hrecords, List.length_map]
  have hsamples : (Frame.wholeWithin k records).map Record.toSample =
      written.take (Frame.wholeWithin k records).length := by
    conv_lhs => rw [Frame.wholeWithin_eq_take, ← hrecords, List.map_take, List.map_map]
    simp [Function.comp_def, Sample.toSample_toRecord, hrecords]
  have hwhole : (Frame.wholeWithin k records).length ≤ records.length := by
    rw [Frame.wholeWithin_eq_take]
    exact List.length_take_le' _ _
  rw [samples_withSpool, Cursor.toList_spooled_eq, hstream,
    Frame.readAll_take_frames records hrecordsFit (hlength ▸ hk), ← hsamples, List.map_map,
    List.take_of_length_le (by simp only; omega), ← hstream, hlength]
  congr 1
  by_cases hcut : k = Frame.span records
  · rw [if_pos hcut, hcut, Frame.wholeWithin_span, if_pos (hcount.trans hwritten.symm).le]
    rfl
  · have hfewer := Frame.length_wholeWithin_lt (show k < Frame.span records by omega)
    rw [if_neg hcut, if_neg (by simp only; omega)]
    rfl

end Reader

/-- The file of a sealed spool holds the frames of the samples that were kept. -/
theorem Writer.holding_of_sealed {w : Writer} {l : Ledger} {reader : Reader} (h : w.Follows l)
    (hmode : w.mode = .spooled) (hsealed : w.sealed = .ok reader) :
    reader.holding = .spooled (some (Frame.stream ((l.kept .spooled).map Sample.toRecord))) := by
  rw [Ledger.kept, ← stream_filter]
  obtain ⟨backing, start, tallies, count⟩ := w
  cases backing with
  | buffered latestFirst => cases hmode
  | spooled frames pending =>
    obtain ⟨hframes, hpending, -⟩ := h.backing
    cases pending with
    | none =>
      have hnil : l.samples = [] := List.getLast?_eq_none_iff.1 hpending.symm
      have hempty : stream frames = Frame.stream [] := by simpa [hnil] using hframes
      rw [hnil, List.map_nil, ← hempty]
      exact Reader.holding_of_ofSpool hsealed
    | some last =>
      have hfits : Ledger.Fits last := last_fits_of_sealed h hsealed rfl hpending.symm
      rw [← List.dropLast_append_getLast? _ hpending.symm, List.map_append, Frame.stream_append,
        List.map_singleton, Frame.stream_singleton_of_fits hfits, ← hframes, ← stream_cons]
      simp only [Writer.sealed, appendFrame_of_fits hfits, Except.bind] at hsealed
      exact Reader.holding_of_ofSpool hsealed

namespace Reader

/-- **Reading a damaged spool is safe and exact.**  A sealed spool holds the frames of the samples
that were kept.  Whatever bytes stand in its place later, a walk shows no more samples than were
written, then one error exactly if it shows fewer, and nothing after that; with an error come
neither the values of a metric nor timestamps that pass for all of them.  Where bytes were cut off
the end, the samples are the first ones that were written, one for each whole frame that is left,
and the error tells a cut between two frames or inside a length from one inside a payload. -/
theorem damaged_spool_is_told {ops : List Writing} {reader : Reader}
    (hsealed : (Writer.after .spooled ops).sealed = .ok reader) :
    ∃ written : List Sample, written = (Ledger.run ops).2.kept .spooled ∧
      reader.count = written.length ∧ reader.Tells written none ∧
      reader.holding = .spooled (some (Frame.stream (written.map Sample.toRecord))) ∧
      (∀ bytes, ∃ shown fault, (reader.withSpool bytes).Tells shown fault ∧
        shown.length ≤ reader.count ∧ (fault.isSome ↔ shown.length < reader.count)) ∧
      ∀ left < (Frame.stream (written.map Sample.toRecord)).length,
        ∃ whole, whole = Frame.wholeWithin left (written.map Sample.toRecord) ∧
          whole.length < reader.count ∧
          (reader.withSpool ((Frame.stream (written.map Sample.toRecord)).take left)).Tells
            (written.take whole.length)
            (some (.codec (if left - Frame.span whole < Frame.headerSize then .invalid .endedEarly
              else .truncated))) := by
  obtain ⟨hfollows, hmode⟩ := Writer.follows_after .spooled ops
  obtain ⟨hshows, -⟩ := Writer.shows_of_sealed hfollows (Writer.counts_after .spooled ops) hsealed
  have hholding := Writer.holding_of_sealed hfollows hmode hsealed
  rw [hmode] at hshows
  generalize hwritten : (Ledger.run ops).2.kept .spooled = written at hshows hholding
  have hfits : ∀ s ∈ written, Ledger.Fits s := by
    rw [← hwritten]
    intro s hs
    simpa using (List.mem_filter.1 hs).2
  refine ⟨written, rfl, hshows.count, tells_of_samples ?_, hholding,
    reader.exists_tells_withSpool, fun left hleft => ⟨_, rfl, ?_, ?_⟩⟩
  · rw [hshows.samples]
    exact (List.append_nil _).symm
  · rw [hshows.count, ← List.length_map (f := Sample.toRecord)]
    refine Frame.length_wholeWithin_lt ?_
    rwa [← (Frame.stream_of_fits (Sample.fits_toRecord hfits)).2]
  · have htells := tells_take_stream hfits hshows.count hleft.le
    rw [if_neg hleft.ne, Frame.cutFault] at htells
    convert htells using 3
    split <;> rfl

/-- A frame of 52 bytes and one of 36, which is cut inside its length and inside its payload. -/
theorem damaged_spool_is_told_two_samples :
    let ops : List Writing :=
      [.start 5, .write (.ofList [("m", 3)]), .attach "user" 7, .write (.ofList [("m", 4)])]
    ∃ reader stream, (Writer.after .spooled ops).sealed = .ok reader ∧
      reader.holding = .spooled (some stream) ∧ stream.length = 88 ∧ reader.count = 2 ∧
      (reader.withSpool (stream.take 54)).Tells [⟨5, .ofList [("m", 3), ("user", 7)]⟩]
        (some (.codec (.invalid .endedEarly))) ∧
      (reader.withSpool (stream.take 56)).Tells [⟨5, .ofList [("m", 3), ("user", 7)]⟩]
        (some (.codec .truncated)) := by
  intro ops
  have hfits : ∀ s ∈ (Ledger.run ops).2.samples, Ledger.Fits s := by decide +kernel
  obtain ⟨-, reader, hsealed, -⟩ := Writer.sealed_after hfits .spooled
  obtain ⟨written, hwritten, hcount, -, hholding, -, hcut⟩ := damaged_spool_is_told hsealed
  have hsamples : (Ledger.run ops).2.kept .spooled =
      [⟨5, .ofList [("m", 3), ("user", 7)]⟩, ⟨0, .ofList [("m", 4)]⟩] := by decide +kernel
  rw [hsamples] at hwritten
  subst hwritten
  refine ⟨reader, _, hsealed, hholding, by decide +kernel, hcount, ?_, ?_⟩
  · obtain ⟨whole, hwhole, -, htells⟩ := hcut 54 (by decide +kernel)
    have hfirst : whole = [⟨5, [("m", 3), ("user", 7)]⟩] := hwhole.trans (by decide +kernel)
    subst hfirst
    exact htells
  · obtain ⟨whole, hwhole, -, htells⟩ := hcut 56 (by decide +kernel)
    have hfirst : whole = [⟨5, [("m", 3), ("user", 7)]⟩] := hwhole.trans (by decide +kernel)
    subst hfirst
    exact htells

end Reader

end Gauge
