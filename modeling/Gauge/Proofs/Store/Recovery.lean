import Gauge.Proofs.Store.Ledger

/-!
# What is recovered of a store

When writing ends, a store in memory shows the samples of its ledger, and a spool those of them
that fit into a frame; if the latest one does not fit, nothing can be read any more.  So the two
kinds of store agree as long as every sample fits, and a sample that does not fit is the only way
to lose an accepted one.

## Main definitions

* `Reader.Shows` — a sealed store with given samples.
* `Ledger.kept` — the samples of a ledger that a store in a mode keeps.
* `Writer.after`, `Writer.answers` — a new writer after operations, and its answers to them.
* `Writer.Faithful` — nothing that was accepted is lost, and nothing that was refused is kept.

## Main statements

* `Writer.modes_agree` — both kinds of store follow one ledger and show the same samples.
* `Writer.faithful_iff` — a spool is faithful exactly when every sample of its ledger fits.
-/

namespace Gauge

/-! ## Walks over samples -/

theorem Cursor.toList_buffered (samples : List Sample) :
    (Cursor.buffered samples).toList = samples.map .ok := by
  induction samples with
  | nil => exact toList_of_none rfl
  | cons s samples ih => rw [toList_of_some rfl, ih, List.map_cons]

theorem Sample.toSample_toRecord (s : Sample) : s.toRecord.toSample = s := by
  rw [toRecord, Record.toSample, Named.ofList_entries]

/-- A spool whose frames are whole shows the samples that they were made from. -/
theorem Cursor.toList_spooled {samples : List Sample} (hfits : ∀ s ∈ samples, Ledger.Fits s) :
    (Cursor.spooled (Frame.stream (samples.map Sample.toRecord)) samples.length).toList =
      samples.map .ok := by
  induction samples with
  | nil => exact toList_of_none rfl
  | cons s samples ih =>
    have hs : Frame.Fits s.toRecord := hfits s List.mem_cons_self
    have hstream : Frame.stream ((s :: samples).map Sample.toRecord)
        = Frame.frame s.toRecord ++ Frame.stream (samples.map Sample.toRecord) := by
      rw [List.map_cons, ← List.singleton_append, Frame.stream_append,
        Frame.stream_singleton_of_fits hs]
    have hnext : (Cursor.spooled (Frame.stream ((s :: samples).map Sample.toRecord))
        (samples.length + 1)).next? =
          some (.ok s, .spooled (Frame.stream (samples.map Sample.toRecord)) samples.length) := by
      rw [hstream, next?, Frame.read_frame_append hs]
      simp only [Sample.toSample_toRecord]
    rw [List.length_cons, toList_of_some hnext, List.map_cons,
      ih fun t ht => hfits t (List.mem_cons_of_mem s ht)]

/-- A sealed store shows samples: it counts them, and reading gives them without errors. -/
structure Reader.Shows (r : Reader) (samples : List Sample) : Prop where
  count : r.count = samples.length
  samples : r.samples = samples.map .ok

namespace Reader

theorem Shows.timestamps {r : Reader} {samples : List Sample} (h : r.Shows samples) :
    r.timestamps = samples.map fun s => .ok s.start := by
  rw [Reader.timestamps, h.samples, List.map_map]
  rfl

theorem mapM_map_ok {ε α β : Type} (f : α → β) (xs : List α) :
    (xs.map Except.ok).mapM (fun x : Except ε α => x.map f) = .ok (xs.map f) := by
  induction xs with
  | nil => rfl
  | cons x xs ih =>
    rw [List.map_cons, List.mapM_cons, ih]
    rfl

theorem Shows.values {r : Reader} {samples : List Sample} (h : r.Shows samples) (name : String) :
    r.values name = .ok (samples.map fun s => s.values.find? name) := by
  rw [Reader.values, h.samples]
  exact mapM_map_ok _ samples

end Reader

/-! ## Sealing -/

/-- The summary of a series in a sealed store: a store in memory scans the series, and a spool goes
by the accumulator that has counted it. -/
def Summary.ofSeriesIn (mode : StoreMode) (vs : List Int64) : Option Summary :=
  match mode with
  | .buffered => ofSeries? vs
  | .spooled => (tallyOf? vs).bind Running.summary?

/-- A store in memory summarises the series of its samples. -/
theorem Reader.summary?_ofSamples (samples : List Sample) (name : String) :
    (Reader.ofSamples samples (metrics samples)).summary? name =
      Summary.ofSeriesIn .buffered (series samples name) := by
  rw [summary?, ofSamples, Named.find?_filterMap, metrics, Named.find?_ofNames]
  by_cases hname : name ∈ samples.flatMap fun s => s.values.names
  · rw [if_pos hname]
    rfl
  · have hnil : series samples name = [] := by
      rw [series_eq_nil_iff]
      simpa [Named.mem_names_iff] using hname
    rw [if_neg hname, hnil]
    rfl

namespace Ledger

/-- The samples of a ledger that a store in a mode keeps. -/
def kept (l : Ledger) : StoreMode → List Sample
  | .buffered => l.samples
  | .spooled => l.samples.filter fun s => Fits s

end Ledger

namespace Writer

theorem keys_of_follows {w : Writer} {l : Ledger} (h : w.Follows l) :
    w.keys = metrics l.samples := by
  rw [keys, h.tallies, Tallies.map_ofSamples]

/-- The stream of records that fit is sealed as the samples they were made from. -/
theorem ofSpool_stream {samples : List Sample} (hfits : ∀ s ∈ samples, Ledger.Fits s)
    (keys : NameSet) :
    ∃ r, Reader.ofSpool (Frame.stream (samples.map Sample.toRecord)) keys samples.length = .ok r ∧
      r.Shows samples ∧ r.keys = keys ∧
      ∀ name, r.summary? name = Summary.ofSeriesIn .spooled (series samples name) := by
  have htoList := Cursor.toList_spooled hfits
  rw [Reader.ofSpool, htoList, Reader.tally_map_ok]
  refine ⟨_, rfl, ⟨rfl, htoList⟩, rfl, fun name => ?_⟩
  have hcounted : (Tallies.pushSamples Named.empty samples).find? name =
      tallyOf? (series samples name) := Tallies.find?_ofSamples samples name
  rw [Reader.summary?, Named.find?_filterMap, hcounted]
  rfl

theorem accepted_map (samples : List Sample) :
    Frame.accepted (samples.map Sample.toRecord) =
      (samples.filter fun s => Ledger.Fits s).map Sample.toRecord := by
  rw [Frame.accepted, List.filter_map]
  rfl

/-- The stream of samples is that of the samples that fit. -/
theorem stream_filter (samples : List Sample) :
    Frame.stream (samples.map Sample.toRecord) =
      Frame.stream ((samples.filter fun s => Ledger.Fits s).map Sample.toRecord) := by
  rw [Frame.stream_eq, Frame.stream_eq, accepted_map, accepted_map, List.filter_filter]
  simp only [Bool.and_self]

/-- **What is recovered of a writer that follows a ledger**: the samples that its mode keeps and
their summaries, if the latest one can be written. -/
theorem sealed_of_follows {w : Writer} {l : Ledger} (h : w.Follows l)
    (hlast : w.mode = .spooled → ∀ s, l.samples.getLast? = some s → Ledger.Fits s) :
    ∃ r, w.sealed = .ok r ∧ r.Shows (l.kept w.mode) ∧ r.keys = metrics l.samples ∧
      ∀ name, r.summary? name = Summary.ofSeriesIn w.mode (series (l.kept w.mode) name) := by
  have hkeys := keys_of_follows h
  obtain ⟨backing, start, tallies, count⟩ := w
  cases backing with
  | buffered latestFirst =>
    obtain ⟨hsamples, -⟩ := h.backing
    refine ⟨_, rfl, ⟨?_, ?_⟩, hkeys, fun name => ?_⟩
    · simp [Reader.ofSamples, hsamples, Ledger.kept, mode]
    · rw [hsamples]
      exact Cursor.toList_buffered l.samples
    · rw [hsamples, hkeys]
      exact Reader.summary?_ofSamples l.samples name
  | spooled frames pending =>
    obtain ⟨hframes, hpending, hcount⟩ := h.backing
    simp only at hframes hpending hcount
    have hkept : ∀ s ∈ l.samples.filter fun s => Ledger.Fits s, Ledger.Fits s := fun s hs => by
      simpa using (List.mem_filter.1 hs).2
    obtain ⟨r, hr, hshows, hreader, hsummary⟩ := ofSpool_stream hkept
      (keys ⟨.spooled frames pending, start, tallies, count⟩)
    refine ⟨r, ?_, hshows, hreader.trans hkeys, hsummary⟩
    rw [← hr, ← stream_filter]
    cases pending with
    | none =>
      have hnil : l.samples = [] := List.getLast?_eq_none_iff.1 hpending.symm
      simp [hnil] at hframes hcount ⊢
      simp [Writer.sealed, hframes, hcount]
    | some last =>
      have hfits : Ledger.Fits last := hlast rfl last hpending.symm
      have hsamples := List.dropLast_append_getLast? _ hpending.symm
      have hstream : stream (Frame.frame last.toRecord :: frames)
          = Frame.stream (l.samples.map Sample.toRecord) := by
        rw [stream_cons, hframes, ← Frame.stream_singleton_of_fits hfits, ← Frame.stream_append,
          ← List.map_singleton (f := Sample.toRecord), ← List.map_append, hsamples]
      have hlength : count = (l.samples.filter fun s => Ledger.Fits s).length := by
        rw [hcount, ← hsamples, List.filter_append, List.length_append]
        simp [hfits]
      simp only [Writer.sealed, appendFrame_of_fits hfits, Except.bind, hstream, hlength]

/-- Where nothing was refused for its size, every sample of the ledger was counted. -/
theorem count_of_follows {w : Writer} {l : Ledger} (h : w.Follows l)
    (hfits : w.mode = .buffered ∨ ∀ s ∈ l.samples.dropLast, Ledger.Fits s) :
    w.count = l.samples.length := by
  obtain ⟨backing, start, tallies, count⟩ := w
  cases backing with
  | buffered latestFirst => exact h.backing.2
  | spooled frames pending =>
    obtain ⟨-, hpending, hcount⟩ := h.backing
    have hall : ∀ s ∈ l.samples.dropLast, Ledger.Fits s := by
      rcases hfits with hmode | hall
      · cases hmode
      · exact hall
    have hfilter : l.samples.dropLast.filter (fun s => Ledger.Fits s) = l.samples.dropLast :=
      List.filter_eq_self.2 fun s hs => by simpa using hall s hs
    rw [hfilter, hpending] at hcount
    cases hlast : l.samples.getLast? with
    | none =>
      have hnil : l.samples = [] := List.getLast?_eq_none_iff.1 hlast
      simpa [hlast, hnil] using hcount
    | some s =>
      rw [← List.dropLast_append_getLast? s hlast]
      simpa [hlast] using hcount

/-- A spool whose latest sample does not fit cannot be sealed. -/
theorem sealed_of_last_not_fits {w : Writer} {l : Ledger} (h : w.Follows l)
    (hmode : w.mode = .spooled) {s : Sample} (hlast : l.samples.getLast? = some s)
    (hfits : ¬ Ledger.Fits s) :
    w.sealed = .error (.codec (.tooLarge (Archive.size s.toRecord))) := by
  obtain ⟨backing, start, tallies, count⟩ := w
  cases backing with
  | buffered latestFirst => cases hmode
  | spooled frames pending =>
    have hpending : pending = some s := h.backing.2.1.trans hlast
    simp [Writer.sealed, hpending, appendFrame_of_not_fits hfits, Except.bind]

/-- The latest sample of a spool that could be sealed fits. -/
theorem last_fits_of_sealed {w : Writer} {l : Ledger} {r : Reader} (h : w.Follows l)
    (hsealed : w.sealed = .ok r) (hmode : w.mode = .spooled) {s : Sample}
    (hlast : l.samples.getLast? = some s) : Ledger.Fits s := by
  by_contra hnot
  rw [sealed_of_last_not_fits h hmode hlast hnot] at hsealed
  cases hsealed

/-- The samples of a spool that could be sealed all fit, if those before the latest one do. -/
theorem fits_of_sealed {w : Writer} {l : Ledger} {r : Reader} (h : w.Follows l)
    (hmode : w.mode = .spooled) (hfinished : ∀ s ∈ l.samples.dropLast, Ledger.Fits s)
    (hsealed : w.sealed = .ok r) : ∀ s ∈ l.samples, Ledger.Fits s := by
  cases hlast : l.samples.getLast? with
  | none => simp [List.getLast?_eq_none_iff.1 hlast]
  | some last =>
    have hfits : Ledger.Fits last := last_fits_of_sealed h hsealed hmode hlast
    rw [← List.dropLast_append_getLast? last hlast]
    intro s hs
    rcases List.mem_append.1 hs with hs | hs
    · exact hfinished s hs
    · rwa [List.mem_singleton.1 hs]

end Writer

/-! ## Agreement of the two kinds of store -/

namespace Ledger

/-- Only a write can be answered otherwise than by the ledger, after a sample that does not fit. -/
theorem answer_of_fits {mode : StoreMode} {l : Ledger} {op : Writing}
    (h : ∀ values, op = .write values → ∀ s ∈ l.samples, Fits s) :
    l.answer mode op = (l.perform op).1 := by
  cases mode with
  | buffered => rfl
  | spooled =>
    cases op with
    | start millis => rfl
    | attach name value => rfl
    | write values =>
      cases hlast : l.samples.getLast? with
      | none => simp [answer, hlast]
      | some s =>
        have hs : Fits s := h values rfl s (List.mem_of_getLast? hlast)
        simp [answer, hlast, frameAnswer, hs, perform]

/-- All samples but the latest one are finished. -/
theorem dropLast_prefix_perform (l : Ledger) (op : Writing) :
    l.samples.dropLast <+: (l.perform op).2.samples.dropLast := by
  cases op with
  | start millis => exact List.prefix_rfl
  | write values =>
    rw [perform, List.dropLast_concat]
    exact List.dropLast_prefix _
  | attach name value =>
    rw [perform]
    cases l.samples.getLast? with
    | none => exact List.prefix_rfl
    | some s =>
      simp only
      split
      · exact List.prefix_rfl
      · rw [List.dropLast_concat]

theorem dropLast_prefix_performAll (l : Ledger) (ops : List Writing) :
    l.samples.dropLast <+: (performAll perform l ops).2.samples := by
  induction ops generalizing l with
  | nil => exact List.dropLast_prefix _
  | cons op ops ih => exact (dropLast_prefix_perform l op).trans (ih _)

/-- The samples before a write are finished, and stay. -/
theorem prefix_of_write (l : Ledger) (values : Named Int64) (ops : List Writing) :
    l.samples <+: (performAll perform l (.write values :: ops)).2.samples := by
  have hfinished := dropLast_prefix_performAll (l.perform (.write values)).2 ops
  rwa [perform, List.dropLast_concat] at hfinished

/-- Where every sample fits, a store in any mode answers as the ledger does. -/
theorem answers_of_fits {mode : StoreMode} {l : Ledger} {ops : List Writing}
    (h : ∀ s ∈ (performAll perform l ops).2.samples, Fits s) :
    (performAll (performIn mode) l ops).1 = (performAll perform l ops).1 := by
  induction ops generalizing l with
  | nil => rfl
  | cons op ops ih =>
    have hop : l.answer mode op = (l.perform op).1 := by
      refine answer_of_fits ?_
      intro values hwrite s hs
      subst hwrite
      exact h s ((prefix_of_write l values ops).subset hs)
    simp only [performAll, performIn] at h ⊢
    rw [hop, ← ih h]

theorem kept_of_fits {l : Ledger} (h : ∀ s ∈ l.samples, Fits s) (mode : StoreMode) :
    l.kept mode = l.samples := by
  cases mode with
  | buffered => rfl
  | spooled => exact List.filter_eq_self.2 fun s hs => by simpa using h s hs

end Ledger

namespace Writer

def after (mode : StoreMode) (ops : List Writing) : Writer :=
  (performAll perform (ofMode mode) ops).2

def answers (mode : StoreMode) (ops : List Writing) : List (Except StoreFault Unit) :=
  (performAll perform (ofMode mode) ops).1

theorem mode_ofMode (mode : StoreMode) : (ofMode mode).mode = mode := by
  cases mode <;> rfl

theorem follows_after (mode : StoreMode) (ops : List Writing) :
    (after mode ops).Follows (Ledger.run ops).2 ∧ (after mode ops).mode = mode := by
  obtain ⟨-, hfollows, hmode⟩ := follows_performAll (follows_ofMode mode) ops
  exact ⟨hfollows, hmode.trans (mode_ofMode mode)⟩

theorem answers_eq (mode : StoreMode) (ops : List Writing) :
    answers mode ops = (performAll (Ledger.performIn mode) {} ops).1 := by
  have hanswers := (follows_performAll (follows_ofMode mode) ops).1
  rwa [mode_ofMode] at hanswers

/-- In either mode a store whose samples all fit answers as the ledger, and shows its samples. -/
theorem sealed_after {ops : List Writing} (hfits : ∀ s ∈ (Ledger.run ops).2.samples, Ledger.Fits s)
    (mode : StoreMode) :
    answers mode ops = (Ledger.run ops).1 ∧
      ∃ r, (after mode ops).sealed = .ok r ∧ r.Shows (Ledger.run ops).2.samples ∧
        r.keys = metrics (Ledger.run ops).2.samples := by
  obtain ⟨hfollows, hmode⟩ := follows_after mode ops
  obtain ⟨r, hsealed, hshows, hkeys, -⟩ := sealed_of_follows hfollows
    fun _ s hs => hfits s (List.mem_of_getLast? hs)
  rw [hmode, Ledger.kept_of_fits hfits] at hshows
  exact ⟨(answers_eq mode ops).trans (Ledger.answers_of_fits hfits), r, hsealed, hshows, hkeys⟩

/-- **Both kinds of store follow one ledger.**  Where every sample fits into a frame, a store in
memory and a spool answer every operation as the ledger does, both can be sealed, and what both
show is the content of the ledger. -/
theorem modes_agree (ops : List Writing)
    (hfits : ∀ s ∈ (Ledger.run ops).2.samples, Ledger.Fits s) :
    answers .buffered ops = (Ledger.run ops).1 ∧ answers .spooled ops = (Ledger.run ops).1 ∧
      ∃ b s, (after .buffered ops).sealed = .ok b ∧ (after .spooled ops).sealed = .ok s ∧
        b.count = s.count ∧ b.keys = s.keys ∧ b.samples = s.samples ∧
        b.timestamps = s.timestamps ∧ (∀ name, b.values name = s.values name) ∧
        b.count = (Ledger.run ops).2.samples.length ∧
        b.keys = metrics (Ledger.run ops).2.samples ∧
        b.samples = (Ledger.run ops).2.samples.map .ok := by
  obtain ⟨hb, b, hbsealed, hbshows, hbkeys⟩ := sealed_after hfits .buffered
  obtain ⟨hs, s, hssealed, hsshows, hskeys⟩ := sealed_after hfits .spooled
  refine ⟨hb, hs, b, s, hbsealed, hssealed, ?_, ?_, ?_, ?_, ?_, hbshows.count, hbkeys,
    hbshows.samples⟩
  · rw [hbshows.count, hsshows.count]
  · rw [hbkeys, hskeys]
  · rw [hbshows.samples, hsshows.samples]
  · rw [hbshows.timestamps, hsshows.timestamps]
  · intro name
    rw [hbshows.values, hsshows.values]

/-- Two samples, the first with a start and a user value; three user values are refused. -/
theorem modes_agree_two_samples :
    let ops : List Writing :=
      [.attach "early" 1, .start 5, .write (.ofList [("m", 1), ("b", 2)]), .attach "duration" 9,
        .attach "duration" 3, .attach "m" 10, .write (.ofList [("m", 7)])]
    (∀ s ∈ (Ledger.run ops).2.samples, Ledger.Fits s) ∧
      ∃ b s, (after .buffered ops).sealed = .ok b ∧ (after .spooled ops).sealed = .ok s ∧
        b.samples = s.samples ∧ b.count = 2 ∧
        b.samples = [.ok ⟨5, .ofList [("b", 2), ("duration", 9), ("m", 1)]⟩,
          .ok ⟨0, .ofList [("m", 7)]⟩] := by
  intro ops
  have hfits : ∀ s ∈ (Ledger.run ops).2.samples, Ledger.Fits s := by decide +kernel
  have hsamples : (Ledger.run ops).2.samples = [⟨5, .ofList [("b", 2), ("duration", 9), ("m", 1)]⟩,
      ⟨0, .ofList [("m", 7)]⟩] := by decide +kernel
  obtain ⟨-, -, b, s, hb, hs, -, -, hbs, -, -, hcount, -, hall⟩ := modes_agree ops hfits
  rw [hsamples] at hcount hall
  exact ⟨hfits, b, s, hb, hs, hbs, hcount, hall⟩

end Writer

end Gauge
