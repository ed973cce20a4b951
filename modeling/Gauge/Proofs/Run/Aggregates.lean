import Gauge.Proofs.Run.Changes
import Gauge.Proofs.Stats.Welford
import Gauge.Proofs.Store.Recovery

/-!
# Sealed aggregates are the live accumulators

While a store takes values, an accumulator per metric counts them as they come: those of a write and
each user value that is accepted.  Sealing computes the aggregates once more, from the samples.
Both see the values of a metric in one order, so as long as no write failed they agree: a spool
repeats the steps of the accumulators, and a store in memory summarises the series that they have
counted.

## Main definitions

* `Writing.counted` — the values of a metric that an operation counts.
* `Writer.counted` — those that a new writer has counted after operations.
* `Writer.Accepting` — no write failed.

## Main statements

* `Writer.running?_after` — an accumulator has counted exactly these values.
* `Writer.summary?_of_accepting` — what a sealed store shows for a metric.
* `Run.sealed_aggregates_live` — sealed aggregates against live ones, and what follows for the test
  behind stopping early.
-/

namespace Gauge

/-! ## What operations count -/

/-- The values of a metric that an operation counts, given the answer to it.  A write counts its
value of the metric, and a user value counts where it is accepted. -/
def Writing.counted (metric : String) : Writing → Except StoreFault Unit → List Int64
  | .start _, _ => []
  | .write values, _ => (values.find? metric).toList
  | .attach name value, .ok () => if name = metric then [value] else []
  | .attach .., .error _ => []

namespace Ledger

/-- An operation appends what it counts to the series of a metric. -/
theorem series_perform (l : Ledger) (op : Writing) (mode : StoreMode) (metric : String) :
    series (l.perform op).2.samples metric =
      series l.samples metric ++ op.counted metric (l.answer mode op) := by
  cases op with
  | start millis => simp [perform, Writing.counted]
  | write values =>
    rw [perform, series_append, series_singleton, Writing.counted]
  | attach name value =>
    have hanswer : l.answer mode (.attach name value) = (l.perform (.attach name value)).1 := by
      cases mode <;> rfl
    rw [hanswer, perform]
    cases hlast : l.samples.getLast? with
    | none => simp [Writing.counted]
    | some s =>
      by_cases hheld : s.values.contains name
      · simp [hheld, Writing.counted]
      · have hnew : s.values.find? name = none :=
          Named.contains_eq_false_iff.1 (Bool.not_eq_true _ ▸ hheld)
        have hsamples := List.dropLast_append_getLast? s hlast
        simp only [if_neg hheld, Writing.counted]
        conv_rhs => rw [← hsamples]
        rw [series_append, series_append, series_singleton, series_singleton, Named.find?_insert,
          List.append_assoc]
        by_cases hname : name = metric
        · subst hname
          simp [hnew]
        · simp [hname, Ne.symm hname]

theorem series_performAll (l : Ledger) (ops : List Writing) (mode : StoreMode) (metric : String) :
    series (performAll perform l ops).2.samples metric = series l.samples metric ++
      (ops.zip (performAll (performIn mode) l ops).1).flatMap fun e => e.1.counted metric e.2 := by
  induction ops generalizing l with
  | nil => simp [performAll]
  | cons op ops ih =>
    rw [performAll, ih, series_perform l op mode, List.append_assoc]
    rfl

/-- Where a spool accepts every write, each sample that is finished fits into a frame. -/
theorem fits_of_answers {l : Ledger} {ops : List Writing}
    (hl : ∀ s ∈ l.samples.dropLast, Fits s)
    (h : ∀ values r, (.write values, r) ∈ ops.zip (performAll (performIn .spooled) l ops).1 →
      r = .ok ()) :
    ∀ s ∈ (performAll perform l ops).2.samples.dropLast, Fits s := by
  induction ops generalizing l with
  | nil => exact hl
  | cons op ops ih =>
    rw [performAll]
    refine ih ?_ fun values r hr => h values r (List.mem_cons_of_mem _ hr)
    cases op with
    | start millis => exact hl
    | attach name value =>
      rw [perform]
      cases hlast : l.samples.getLast? with
      | none => exact hl
      | some s =>
        simp only
        split
        · exact hl
        · simpa using hl
    | write values =>
      have hanswer : l.answer .spooled (.write values) = .ok () :=
        h values _ List.mem_cons_self
      rw [perform, List.dropLast_concat]
      exact fits_of_answer hl hanswer

end Ledger

namespace Writer

/-- The values of a metric that a new writer has counted after operations, in order. -/
def counted (mode : StoreMode) (ops : List Writing) (metric : String) : List Int64 :=
  (ops.zip (answers mode ops)).flatMap fun e => e.1.counted metric e.2

/-- No write failed; user values may have been refused. -/
def Accepting (mode : StoreMode) (ops : List Writing) : Prop :=
  ∀ values r, (.write values, r) ∈ ops.zip (answers mode ops) → r = .ok ()

theorem series_run (mode : StoreMode) (ops : List Writing) (metric : String) :
    series (Ledger.run ops).2.samples metric = counted mode ops metric := by
  rw [Ledger.run, Ledger.series_performAll _ _ mode, counted, answers_eq]
  rfl

/-- An accumulator has counted exactly the values of its metric, whether a write failed or not. -/
theorem running?_after (mode : StoreMode) (ops : List Writing) (metric : String) :
    (after mode ops).running? metric = tallyOf? (counted mode ops metric) := by
  rw [running?, (follows_after mode ops).1.tallies, Tallies.find?_ofSamples, series_run mode]

/-- A spool that accepted every write and could be sealed has only samples that fit. -/
theorem fits_of_accepting {ops : List Writing} {reader : Reader} (h : Accepting .spooled ops)
    (hsealed : (after .spooled ops).sealed = .ok reader) :
    ∀ s ∈ (Ledger.run ops).2.samples, Ledger.Fits s := by
  obtain ⟨hfollows, hmode⟩ := follows_after .spooled ops
  have hfinished : ∀ s ∈ (Ledger.run ops).2.samples.dropLast, Ledger.Fits s := by
    refine Ledger.fits_of_answers (fun s hs => by cases hs) ?_
    rw [← answers_eq]
    exact h
  exact fits_of_sealed hfollows hmode hfinished hsealed

/-- **What a sealed store shows for a metric**: the summary of the values that were counted. -/
theorem summary?_of_accepting {mode : StoreMode} {ops : List Writing} {reader : Reader}
    (h : Accepting mode ops) (hsealed : (after mode ops).sealed = .ok reader) :
    reader.keys = metrics (Ledger.run ops).2.samples ∧
      ∀ metric, reader.summary? metric = Summary.ofSeriesIn mode (counted mode ops metric) := by
  have hkept : (Ledger.run ops).2.kept mode = (Ledger.run ops).2.samples := by
    cases mode with
    | buffered => rfl
    | spooled => exact Ledger.kept_of_fits (fits_of_accepting h hsealed) .spooled
  obtain ⟨hfollows, hmode⟩ := follows_after mode ops
  have hlast : (after mode ops).mode = .spooled →
      ∀ s, (Ledger.run ops).2.samples.getLast? = some s → Ledger.Fits s := by
    intro hspooled s hs
    have hmode' : mode = .spooled := hmode.symm.trans hspooled
    subst hmode'
    exact fits_of_accepting h hsealed s (List.mem_of_getLast? hs)
  obtain ⟨r, hr, -, hkeys, hsummary⟩ := sealed_of_follows hfollows hlast
  rw [hsealed] at hr
  cases hr
  refine ⟨hkeys, fun metric => ?_⟩
  rw [hsummary, hmode, hkept, series_run mode]

end Writer

/-! ## Summaries and accumulators -/

namespace Running

/-- The summary of an accumulator that has counted a value. -/
theorem summary?_ofSeries {vs : List Int64} (h : vs ≠ []) :
    ∃ s : Summary, (ofSeries vs : Tally).summary? = some s ∧
      s.relativeStdDev = (ofSeries vs : Tally).relativeStdDev := by
  have hcount : (ofSeries vs : Tally).count ≠ 0 := count_ofSeries_ne_zero h
  refine ⟨_, by rw [summary?, moments?, if_neg hcount]; rfl, ?_⟩
  rw [relativeStdDev, meanOrNaN, stdDev, if_neg hcount, if_neg hcount]
  rfl

end Running

theorem Summary.isSome_ofSeriesIn (mode : StoreMode) (vs : List Int64) :
    (ofSeriesIn mode vs).isSome ↔ vs ≠ [] := by
  cases vs with
  | nil => cases mode <;> simp [ofSeriesIn, ofSeries?, Moments.ofSeries?, tallyOf?]
  | cons v vs =>
    obtain ⟨s, hs, -⟩ := Running.summary?_ofSeries (List.cons_ne_nil v vs)
    cases mode with
    | buffered => simp [ofSeriesIn, ofSeries?, Moments.ofSeries?]
    | spooled => simp [ofSeriesIn, tallyOf?, hs]

/-- In memory the summary of a series has the count and the extremes of its accumulator. -/
theorem Summary.ofSeries?_extremes (vs : List Int64) :
    (ofSeries? vs).map (fun s => (s.count, s.min, s.max)) =
      (tallyOf? vs).map fun tally => (tally.count, tally.min, tally.max) := by
  cases vs with
  | nil => rfl
  | cons v vs =>
    obtain ⟨m, hm⟩ : ∃ m : Moments Float, Moments.ofSeries? (v :: vs) = some m := ⟨_, rfl⟩
    obtain ⟨hcount, hmin, hmax⟩ := Running.extremes_ofSeries v vs hm
    rw [ofSeries?, hm, tallyOf?, if_neg (List.cons_ne_nil v vs)]
    simp only [Option.map_some, ofMoments, hcount, hmin, hmax]

/-- Either way to the summary of a series counts its values. -/
theorem Summary.count_ofSeriesIn (mode : StoreMode) (vs : List Int64) :
    (ofSeriesIn mode vs).map (·.count) = if vs.length = 0 then none else some vs.length := by
  cases vs with
  | nil => cases mode <;> simp [ofSeriesIn, ofSeries?, Moments.ofSeries?, tallyOf?]
  | cons v vs =>
    have hcount : (Running.ofSeries (v :: vs) : Tally).count = vs.length + 1 :=
      Running.count_ofSeries (v :: vs)
    cases mode with
    | buffered =>
      have hextremes := congrArg (Option.map (·.1)) (Summary.ofSeries?_extremes (v :: vs))
      simpa [ofSeriesIn, Option.map_map, Function.comp_def, tallyOf?, hcount] using hextremes
    | spooled =>
      simp [ofSeriesIn, tallyOf?, Running.summary?, Running.moments?, Summary.ofMoments]

/-! ## Runs -/

namespace Run

open Session Step

variable {κ : Type} [Device κ] {s : Session κ}

/-- The end of writing leaves the store, if a collector breaks off, or seals it. -/
theorem store_finalize {w : Writer} {reader : Reader} (hstore : s.run.store = .writing w)
    (hsealed : w.sealed = .ok reader) (failure : Option Failure) :
    Yields (finalize failure) s fun _ t =>
      t.run.store = .writing w ∨ t.run.store = .sealed reader := by
  simp only [finalize, yields_bind]
  refine (yields_abort s).mono fun r t hstopped => ?_
  obtain ⟨_, _, _, hrun, -, -⟩ := hstopped
  have hkept : t.run.store = .writing w := by rw [hrun]; exact hstore
  cases r with
  | error e => exact .inl hkept
  | ok _ =>
    simp only [yields_theRun]
    have hreader : t.run.store.toReader = .ok reader := by rw [hkept]; exact hsealed
    rw [hreader]
    cases failure <;> exact .inr rfl

omit [Device κ] in
/-- The test behind stopping early looks at the spread of each metric and at nothing else. -/
theorem isSpreadBelow_congr {r r' : Run κ} (h : ∀ metric, r.spread? metric = r'.spread? metric)
    (thresholds : Named Float) : r.isSpreadBelow thresholds = r'.isSpreadBelow thresholds := by
  simp only [isSpreadBelow, h]

/-- Where a summary is that of an accumulator, both have one spread. -/
theorem spread_of_summary {summary : Option Summary} {vs : List Int64}
    (h : summary = (tallyOf? vs).bind Running.summary?) :
    summary.map Summary.relativeStdDev = (tallyOf? vs).map Running.relativeStdDev := by
  subst h
  by_cases hvs : vs = []
  · simp [tallyOf?, hvs]
  · obtain ⟨s, hs, hspread⟩ := Running.summary?_ofSeries hvs
    simp [tallyOf?, hvs, hs, hspread]

/-- **Sealed aggregates are the live accumulators.**  After operations on a new writer of which no
write failed, and if the store could be sealed: each accumulator has counted the values of its
metric in order; a spool shows the summary of the accumulator, number for number; a store in memory
shows the summary of the series that was counted, with the count and the extremes of the
accumulator; and the metrics of the store are those that have a summary.  So for a run whose samples
are spooled the test behind stopping early has one answer before and after the end of writing. -/
theorem sealed_aggregates_live {mode : StoreMode} {ops : List Writing} {reader : Reader}
    (h : Writer.Accepting mode ops) (hsealed : (Writer.after mode ops).sealed = .ok reader) :
    (∀ metric,
      (Writer.after mode ops).running? metric = tallyOf? (Writer.counted mode ops metric)) ∧
    (mode = .spooled → ∀ metric, reader.summary? metric =
      ((Writer.after mode ops).running? metric).bind Running.summary?) ∧
    (mode = .buffered → ∀ metric,
      reader.summary? metric = Summary.ofSeries? (Writer.counted mode ops metric) ∧
        (reader.summary? metric).map (fun s => (s.count, s.min, s.max)) =
          ((Writer.after mode ops).running? metric).map fun tally =>
            (tally.count, tally.min, tally.max)) ∧
    (∀ metric, reader.keys.contains metric ↔ (reader.summary? metric).isSome) ∧
    (mode = .spooled → ∀ s : Session κ, s.run.store = .writing (Writer.after mode ops) →
      ∀ failure thresholds, (after (finalize failure) s).run.isSpreadBelow thresholds =
        s.run.isSpreadBelow thresholds) := by
  have hcounted := Writer.running?_after mode ops
  obtain ⟨hkeys, hsummary⟩ := Writer.summary?_of_accepting h hsealed
  refine ⟨hcounted, ?_, ?_, fun metric => ?_, ?_⟩
  · rintro rfl metric
    rw [hsummary, hcounted]
    rfl
  · rintro rfl metric
    rw [hsummary, hcounted]
    exact ⟨rfl, Summary.ofSeries?_extremes _⟩
  · rw [hkeys, hsummary, Summary.isSome_ofSeriesIn, ← Writer.series_run mode,
      ← Tallies.map_ofSamples, Named.contains, Named.find?_map, Tallies.find?_ofSamples]
    by_cases hnil : series (Ledger.run ops).2.samples metric = []
    · simp [hnil, tallyOf?]
    · simp [hnil, tallyOf?]
  · rintro rfl s hstore failure thresholds
    have hend := yields_after_iff.1 (store_finalize hstore hsealed failure)
    refine isSpreadBelow_congr (fun metric => ?_) thresholds
    rcases hend with hkept | hreader
    · rw [spread?, spread?, hkept, hstore]
    · rw [spread?, spread?, hreader, hstore]
      simp only [hcounted]
      exact spread_of_summary (hsummary metric)

/-- Two samples are spooled, and two of three user values are refused. -/
theorem sealed_aggregates_live_two_samples :
    let ops : List Writing :=
      [.attach "early" 1, .start 5, .write (.ofList [("time", 3)]), .attach "size" 7,
        .attach "size" 8, .write (.ofList [("time", 4)])]
    Writer.Accepting .spooled ops ∧ ∃ reader, (Writer.after .spooled ops).sealed = .ok reader ∧
      (Writer.after .spooled ops).running? "time" = some (Running.ofSeries [3, 4]) ∧
      reader.summary? "time" = (Running.ofSeries [3, 4] : Tally).summary? ∧
      reader.summary? "size" = (Running.ofSeries [7] : Tally).summary? ∧
      reader.keys.contains "early" = false := by
  intro ops
  have hanswers : Writer.answers .spooled ops = [.error (.noSample "early"), .ok (), .ok (), .ok (),
      .error (.duplicateValue "size"), .ok ()] := by
    decide +kernel
  have haccepting : Writer.Accepting .spooled ops := by
    intro values r hr
    rw [hanswers] at hr
    simp only [ops, List.zip_cons_cons, List.zip_nil_right, List.mem_cons, Prod.mk.injEq,
      reduceCtorEq, false_and, false_or, List.not_mem_nil, or_false] at hr
    rcases hr with ⟨-, hr⟩ | ⟨-, hr⟩ <;> exact hr
  have hfits : ∀ s ∈ (Ledger.run ops).2.samples, Ledger.Fits s := by
    decide +kernel
  obtain ⟨-, reader, hsealed, -⟩ := Writer.sealed_after hfits .spooled
  obtain ⟨hcounted, hspooled, -, hkeys, -⟩ :=
    sealed_aggregates_live (κ := Instrument) haccepting hsealed
  have htime : Writer.counted .spooled ops "time" = [3, 4] := by
    rw [Writer.counted, hanswers]
    decide +kernel
  have hsize : Writer.counted .spooled ops "size" = [7] := by
    rw [Writer.counted, hanswers]
    decide +kernel
  have hearly : Writer.counted .spooled ops "early" = [] := by
    rw [Writer.counted, hanswers]
    decide +kernel
  refine ⟨haccepting, reader, hsealed, ?_, ?_, ?_, ?_⟩
  · rw [hcounted, htime]
    rfl
  · rw [hspooled rfl, hcounted, htime]
    rfl
  · rw [hspooled rfl, hcounted, hsize]
    rfl
  · rw [← Bool.not_eq_true, hkeys, hspooled rfl, hcounted, hearly]
    simp [tallyOf?]

end Run

end Gauge
