import Gauge.Proofs.Run.Changes

/-!
# The count of a run and the samples of its store

A run counts its iterations on its own, and so does its writer, while the samples themselves are
vectors, frames and a sample held back.  None of them gets ahead of the others, also where a stop or
the end of writing fails: a run that is not lost has as many iterations as its store has samples.

## Main definitions

* `Backing.size` — how many samples a store holds that is being written.
* `Run.Accounted` — a run whose count is that of its store.

## Main statements

* `Writer.counts_after` — a writer counts the samples that it holds, whatever it answered.
* `Run.Alters.accounted` — every change of a run keeps the counts together.
* `Run.executions_eq_samples` — so does every history of a run.
-/

namespace Gauge

open Relation (ReflTransGen)

/-- How many samples a store holds: those in memory, or the frames written and the sample that is
held back. -/
def Backing.size : Backing → Nat
  | buffered latestFirst => latestFirst.length
  | spooled frames pending => frames.length + pending.toList.length

namespace Writer

variable {w : Writer} {l : Ledger} {mode : StoreMode}

/-- A writer counts the samples that it holds. -/
def Counts (w : Writer) : Prop := w.count = w.backing.size

/-- A write that is refused replaces the sample held back, and one that is not adds a sample. -/
theorem counts_write (h : w.Counts) (values : Named Int64) : (w.write values).2.Counts := by
  obtain ⟨backing, start, tallies, count⟩ := w
  cases backing with
  | buffered latestFirst => simpa [write, Counts, Backing.size] using h
  | spooled frames pending =>
    cases pending with
    | none => simpa [write, Counts, Backing.size] using h
    | some previous =>
      by_cases hfits : Ledger.Fits previous
      · rw [write_spooled_of_fits hfits]
        simpa [Counts, Backing.size] using h
      · rw [write_spooled_of_not_fits hfits]
        simpa [Counts, Backing.size] using h

theorem count_attach (w : Writer) (name : String) (value : Int64) :
    (w.attach name value).2.count = w.count := by
  obtain ⟨backing, start, tallies, count⟩ := w
  rw [attach]
  split
  · rfl
  · split
    · rfl
    · cases backing <;> rfl

theorem counts_attach (h : w.Counts) (name : String) (value : Int64) :
    (w.attach name value).2.Counts := by
  obtain ⟨backing, start, tallies, count⟩ := w
  rw [attach]
  cases backing with
  | buffered latestFirst =>
    cases latestFirst with
    | nil => exact h
    | cons s rest =>
      simp only [latest?, List.head?_cons]
      split
      · exact h
      · exact h
  | spooled frames pending =>
    cases pending with
    | none => exact h
    | some s =>
      simp only [latest?]
      split
      · exact h
      · exact h

theorem counts_perform (h : w.Counts) (op : Writing) : (w.perform op).2.Counts := by
  cases op with
  | start millis => exact h
  | write values => exact counts_write h values
  | attach name value => exact counts_attach h name value

/-- A write that is refused leaves the count, as the sample held back makes way for the next one. -/
theorem count_refused {fault : StoreFault} {values : Named Int64}
    (h : (w.write values).1 = .error fault) : (w.write values).2.count = w.count := by
  obtain ⟨backing, start, tallies, count⟩ := w
  cases backing with
  | buffered latestFirst => cases h
  | spooled frames pending =>
    cases pending with
    | none => cases h
    | some previous =>
      by_cases hfits : Ledger.Fits previous
      · rw [write_spooled_of_fits hfits] at h
        cases h
      · rw [write_spooled_of_not_fits hfits]

theorem after_concat (mode : StoreMode) (ops : List Writing) (op : Writing) :
    after mode (ops ++ [op]) = ((after mode ops).perform op).2 :=
  performAll_append perform (ofMode mode) ops [op]

/-- A writer counts the samples that it holds, whatever it has answered. -/
theorem counts_after (mode : StoreMode) (ops : List Writing) : (after mode ops).Counts := by
  induction ops using List.reverseRecOn with
  | nil => cases mode <;> rfl
  | append_singleton ops op ih =>
    rw [after_concat]
    exact counts_perform ih op

/-- A writer that can be sealed shows the samples that its mode keeps, and the reader counts them as
the writer did. -/
theorem shows_of_sealed {reader : Reader} (h : w.Follows l) (hcount : w.Counts)
    (hsealed : w.sealed = .ok reader) : reader.Shows (l.kept w.mode) ∧ reader.count = w.count := by
  have hlast : w.mode = .spooled → ∀ s, l.samples.getLast? = some s → Ledger.Fits s :=
    fun hmode s hs => last_fits_of_sealed h hsealed hmode hs
  obtain ⟨reader', hsealed', hshows, -⟩ := sealed_of_follows h hlast
  rw [hsealed] at hsealed'
  cases hsealed'
  refine ⟨hshows, ?_⟩
  obtain ⟨backing, start, tallies, count⟩ := w
  cases backing with
  | buffered latestFirst =>
    cases hsealed
    rw [hcount]
    exact List.length_reverse
  | spooled frames pending =>
    obtain ⟨hframes, hpending, hfiltered⟩ := h.backing
    rw [hshows.count]
    simp only at hpending hfiltered ⊢
    cases hl : l.samples.getLast? with
    | none =>
      have hnil : l.samples = [] := List.getLast?_eq_none_iff.1 hl
      simp [hfiltered, hpending, hnil, Ledger.kept, mode]
    | some s =>
      have hfits : Ledger.Fits s := hlast rfl s hl
      have hsamples := List.dropLast_append_getLast? s hl
      change (l.samples.filter fun s => Ledger.Fits s).length = count
      rw [hfiltered, hpending, hl, ← hsamples]
      simp [hfits]

end Writer

/-! ## Runs -/

namespace Run

variable {κ : Type} [Device κ] {r r' : Run κ}

/-- A run counts the samples of its store.  While that takes values it is a writer that was used as
writers are; a sealed store can be read without an error as long as it has its samples. -/
def Accounted (r : Run κ) : Prop :=
  match r.store with
  | .writing w => (∃ ops, w = Writer.after (.ofPlanned r.config.executions) ops) ∧
      r.executions = w.count
  | .sealed reader => r.executions = reader.count ∧
      (reader.isDisposed = false → ∃ samples, reader.Shows samples)
  | .lost => True

/-- The store that a writer is sealed to can be read, and it has the samples that were counted. -/
theorem accounted_sealed {w : Writer} {reader : Reader} {mode : StoreMode}
    (hw : ∃ ops, w = Writer.after mode ops) (hsealed : w.sealed = .ok reader) :
    reader.count = w.count ∧ ∃ samples, reader.Shows samples := by
  obtain ⟨ops, rfl⟩ := hw
  obtain ⟨hshows, hcount⟩ := Writer.shows_of_sealed (Writer.follows_after mode ops).1
    (Writer.counts_after mode ops) hsealed
  exact ⟨hcount, _, hshows⟩

theorem Change.accounted (h : r.Change r') (hr : r.Accounted) : r'.Accounted := by
  have hwriter {w : Writer} (hstore : r.store = .writing w) :
      (∃ ops, w = Writer.after (.ofPlanned r.config.executions) ops) ∧ r.executions = w.count := by
    rw [Accounted, hstore] at hr
    exact hr
  have hnext {w : Writer} (hstore : r.store = .writing w) (op : Writing) :
      ∃ ops, (w.perform op).2 = Writer.after (.ofPlanned r.config.executions) ops := by
    obtain ⟨⟨ops, rfl⟩, -⟩ := hwriter hstore
    exact ⟨ops ++ [op], (Writer.after_concat _ ops op).symm⟩
  cases h with
  | ordered | called | opened | closed | early => exact hr
  | noted hstore millis => exact ⟨hnext hstore (.start millis), (hwriter hstore).2⟩
  | written hstore hok => exact ⟨hnext hstore (.write (values r)), rfl⟩
  | refused hstore hfault =>
    refine ⟨hnext hstore (.write (values r)), (hwriter hstore).2.trans ?_⟩
    exact (Writer.count_refused hfault).symm
  | attached hstore hname value =>
    refine ⟨hnext hstore (.attach _ value), (hwriter hstore).2.trans ?_⟩
    exact (Writer.count_attach _ _ value).symm

theorem Turn.accounted (h : r.Turn r') (hr : r.Accounted) : r'.Accounted := by
  cases h with
  | change h => exact h.accounted hr
  | lost => exact trivial
  | @sealed reader hreader hclosed failure =>
    rw [Accounted] at hr
    change r.executions = reader.count ∧ (reader.isDisposed = false → _)
    cases hstore : r.store with
    | lost => simp [hstore, RunStore.toReader] at hreader
    | sealed old =>
      rw [hstore] at hr hreader
      cases hreader
      exact hr
    | writing w =>
      rw [hstore] at hr hreader
      obtain ⟨hcount, hshows⟩ := accounted_sealed hr.1 hreader
      exact ⟨hr.2.trans hcount.symm, fun _ => hshows⟩

/-- Every change of a run keeps its count and that of its store together. -/
theorem Alters.accounted (h : r.Alters r') (hr : r.Accounted) : r'.Accounted := by
  cases h with
  | turn h => exact h.accounted hr
  | disposed hstore =>
    rw [Accounted, hstore] at hr
    exact ⟨hr.1, fun h => by simp [Reader.isDisposed, Reader.dispose] at h⟩

theorem accounted_of_alters (h : ReflTransGen Alters r r') (hr : r.Accounted) : r'.Accounted := by
  induction h with
  | refl => exact hr
  | tail _ halters ih => exact halters.accounted ih

end Run

/-- A new run is accounted for. -/
theorem Session.Fresh.accounted {κ : Type} [Device κ] {s : Session κ} (h : s.Fresh) :
    s.run.Accounted := by
  rw [h.run_eq]
  exact ⟨⟨[], rfl⟩, by cases hmode : StoreMode.ofPlanned s.run.config.executions <;> rfl⟩

namespace Run

open Session Step

variable {κ : Type} [Device κ] {s t : Session κ}

/-- **The count of a run and the samples of its store never diverge.**  After any operations on a
new run, also those that fail, and unless the store was lost, the run has counted as many iterations
as its store has samples: as long as values are written those in memory or in the spool, the one
held back included, and those that can be read without an error once the store is sealed. -/
theorem executions_eq_samples (hfresh : s.Fresh) (h : s.Leads t) :
    (∀ w, t.run.store = .writing w →
      t.run.executions = w.backing.size ∧ t.run.executions = w.count) ∧
    ∀ reader, t.run.store = .sealed reader →
      t.run.executions = reader.count ∧
        (reader.isDisposed = false → ∃ samples : List Sample, samples.length = t.run.executions ∧
          reader.samples = samples.map .ok ∧
          reader.timestamps = samples.map fun x => .ok x.start) := by
  have haccounted := accounted_of_alters h.alters hfresh.accounted
  refine ⟨fun w hw => ?_, fun reader hreader => ?_⟩
  · rw [Accounted, hw] at haccounted
    obtain ⟨⟨ops, rfl⟩, hcount⟩ := haccounted
    exact ⟨hcount.trans (Writer.counts_after _ ops), hcount⟩
  · rw [Accounted, hreader] at haccounted
    obtain ⟨hcount, hshows⟩ := haccounted
    refine ⟨hcount, fun hdisposed => ?_⟩
    obtain ⟨samples, hsamples⟩ := hshows hdisposed
    exact ⟨samples, hsamples.count.symm.trans hcount.symm, hsamples.samples, hsamples.timestamps⟩

omit [Device κ] in
/-- Only a sealed store can be read. -/
theorem store_of_reader {r : Run κ} {reader : Reader} (h : r.reader.toOption = some reader) :
    r.store = .sealed reader := by
  rw [Run.reader] at h
  cases hstore : r.store with
  | writing w => simp [hstore, Except.toOption] at h
  | lost => simp [hstore, Except.toOption] at h
  | sealed old => simpa [hstore, Except.toOption] using h

/-- A run whose samples are spooled, with three collectors. -/
def spooledCollectors : Session Instrument :=
  { threeCollectors with
    run := { threeCollectors.run with
      config := { threeCollectors.run.config with executions := 1000 }
      store := .writing (.ofPlanned 1000) } }

/-- Two iterations are stopped and one is given up; a stop and a user value are refused. -/
theorem executions_eq_samples_spooledCollectors :
    spooledCollectors.Fresh ∧ ∃ t reader, spooledCollectors.Leads t ∧
      t.run.store = .sealed reader ∧ reader.isDisposed = false ∧ t.run.executions = 2 ∧
        ∃ samples : List Sample, samples.length = 2 ∧ reader.samples = samples.map .ok := by
  have hfresh : spooledCollectors.Fresh :=
    ⟨spooledCollectors.run.config, spooledCollectors.run.collectors, spooledCollectors.run, rfl,
      rfl⟩
  have horder : startOrder spooledCollectors.run.collectors = [1, 2, 0] := order_threeCollectors
  have hleads := (Leads.perform spooledCollectors.work ⟨0, []⟩ .prepare .refl :
    spooledCollectors.Leads _).foldl ⟨0, []⟩ [.stop, .start, .stop, .attach "size" 1,
      .attach "size" 2, .restart, .abort, .start, .stop, .finalize none]
  rw [after_prepare, horder] at hleads
  generalize ht : List.foldl _ _ _ = t at hleads
  have hexecutions : t.run.executions = 2 := by
    rw [← ht]
    decide +kernel
  have hheld : t.run.reader.toOption.map Reader.isDisposed = some false := by
    rw [← ht]
    decide +kernel
  obtain ⟨reader, hreader, hdisposed⟩ := Option.map_eq_some_iff.1 hheld
  have hstore : t.run.store = .sealed reader := store_of_reader hreader
  obtain ⟨-, hsamples⟩ := (executions_eq_samples hfresh hleads).2 reader hstore
  obtain ⟨samples, hlength, hread, -⟩ := hsamples hdisposed
  exact ⟨hfresh, t, reader, hleads, hstore, hdisposed, hexecutions, samples,
    hlength.trans hexecutions, hread⟩

end Run

end Gauge
