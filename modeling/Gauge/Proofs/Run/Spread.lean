import Gauge.Proofs.Run.Convergence
import Gauge.Proofs.Run.Provenance
import Gauge.Proofs.Stats.Spread

/-!
# What a threshold that is met says of the data

A run tests its metrics for convergence by the quotient of a standard deviation and a mean, both
computed in floats.  Whatever the caller has done before, these are computed of the values that were
recorded, by an accumulator or in two passes.  So a threshold that is met bounds the spread of the
values by the threshold times their mean, up to the rounding of floats; but only where the mean is not
negative, as a negative mean makes the quotient negative and meets every threshold.

## Main definitions

* `Run.mean?` — the mean of a metric as a store shows it.
* `RunStore.Records` — the samples whose values a store aggregates.
* `Displayed` — a mean and a spread that are shown of a series.

## Main statements

* `RunStore.Records.displayed` — what a run shows of a metric is computed of its values.
* `Displayed.bounds` — what a test of it against a threshold says of these values.
* `Configuration.Admissible.bounds` — what the rule for stopping early says of them.
* `Run.met_thresholds_bound_spread` — what a threshold that is met says of the values.
-/

namespace Gauge

/-- The mean of a metric as the store shows it. -/
def Run.mean? {κ : Type} (r : Run κ) (metric : String) : Option Float :=
  match r.store with
  | .writing w => (w.running? metric).map Running.meanOrNaN
  | .sealed reader => (reader.summary? metric).map Summary.mean
  | .lost => none

/-- The samples whose values a store aggregates: those of all entries as long as it takes values, and
those that it was made from when it is sealed. -/
inductive RunStore.Records (entries : List Entry) : RunStore → List Sample → Prop
  | writing (w : Writer) : Records entries (.writing w) (entries.map Entry.sample)
  | sealed {reader : Reader} {stored : List Entry} (hstored : stored.Sublist entries)
      (hmade : reader.MadeFrom (stored.map Entry.sample)) :
      Records entries (.sealed reader) (stored.map Entry.sample)
  | lost : Records entries .lost []

/-- What is shown of a series: nothing of an empty one, and otherwise a mean and a spread that are
computed of its values. -/
inductive Displayed (vs : List Int64) : Option Float → Option Float → Prop
  | nothing (h : vs = []) : Displayed vs none none
  | numbers {mean variance : Float} (h : vs ≠ []) (hcomputed : Computed vs mean variance) :
      Displayed vs (some mean) (some (relativeStdDev mean variance.sqrt))

namespace Displayed

variable {vs : List Int64}

/-- An accumulator that has counted a value shows its mean and its variance. -/
theorem ofSeries (h : vs ≠ []) :
    (Running.ofSeries vs : Tally).meanOrNaN = (Running.ofSeries vs : Tally).mean ∧
      (Running.ofSeries vs : Tally).relativeStdDev =
        relativeStdDev (Running.ofSeries vs : Tally).mean
          (Running.ofSeries vs : Tally).variance.sqrt := by
  have hcount : (Running.ofSeries vs : Tally).count ≠ 0 := Running.count_ofSeries_ne_zero h
  rw [Running.relativeStdDev, Running.meanOrNaN, Running.stdDev, if_neg hcount, if_neg hcount]
  exact ⟨rfl, rfl⟩

/-- The accumulator of a metric. -/
theorem tally (vs : List Int64) : Displayed vs ((tallyOf? vs).map Running.meanOrNaN)
    ((tallyOf? vs).map Running.relativeStdDev) := by
  by_cases hvs : vs = []
  · subst hvs
    exact .nothing rfl
  · obtain ⟨hmean, hspread⟩ := ofSeries hvs
    rw [tallyOf?, if_neg hvs, Option.map_some, Option.map_some, hmean, hspread]
    exact .numbers hvs .accumulator

/-- The summary of a metric, in either mode of a sealed store. -/
theorem summary (mode : StoreMode) (vs : List Int64) :
    Displayed vs ((Summary.ofSeriesIn mode vs).map Summary.mean)
      ((Summary.ofSeriesIn mode vs).map Summary.relativeStdDev) := by
  by_cases hvs : vs = []
  · subst hvs
    cases mode <;> exact .nothing rfl
  cases mode with
  | buffered =>
    obtain ⟨moments, hmoments⟩ : ∃ moments : Moments Float, Moments.ofSeries? vs = some moments := by
      cases vs with
      | nil => exact absurd rfl hvs
      | cons v vs => exact ⟨_, rfl⟩
    rw [Summary.ofSeriesIn, Summary.ofSeries?, hmoments]
    exact .numbers hvs (.twoPasses hmoments)
  | spooled =>
    have hcount : (Running.ofSeries vs : Tally).count ≠ 0 := Running.count_ofSeries_ne_zero hvs
    rw [Summary.ofSeriesIn, tallyOf?, if_neg hvs, Option.bind_some, Running.summary?,
      Running.moments?, if_neg hcount]
    exact .numbers hvs .accumulator

/-- What a test of what is shown against a valid threshold says of a series. -/
theorem bounds {mean? spread? : Option Float} {T : Float} {test : Bool}
    (h : Displayed vs mean? spread?) (hT : Configuration.thresholdOk T = true)
    (htest : test = true ↔ ∃ spread, spread? = some spread ∧ spread ≤ T) :
    (vs = [] → test = false) ∧
      (vs ≠ [] → ∃ mean, mean? = some mean ∧
        ((test = true → Moments.Within vs (number T)) ↔
          (mean < 0.0 → Moments.Within vs (number T))) ∧
        (vs.length ≤ 2 ^ 46 → mean < 0.0 → test = true)) := by
  obtain ⟨hnumber, hnonneg⟩ := denotes_of_thresholdOk hT
  cases h with
  | nothing hempty =>
    refine ⟨fun _ => ?_, fun hne => absurd hempty hne⟩
    rw [← Bool.not_eq_true, htest]
    simp
  | @numbers mean variance hne hcomputed =>
    have hmet : test = true ↔ relativeStdDev mean variance.sqrt ≤ T := by
      rw [htest]
      simp
    have hnegative : vs.length ≤ 2 ^ 46 → mean < 0.0 → test = true :=
      fun hlength hsign => hmet.2 (hcomputed.le_of_negative hlength hnumber hnonneg hsign)
    refine ⟨fun hempty => absurd hempty hne,
      fun _ => ⟨mean, rfl, ⟨fun hclaim hsign => ?_, fun hclaim hbelow => ?_⟩, hnegative⟩⟩
    · by_cases hlong : 2 ^ 46 ≤ vs.length
      · exact Moments.within_of_long hlong hnonneg
      · exact hclaim (hnegative (not_le.1 hlong).le hsign)
    · by_cases hsign : mean < 0.0
      · exact hclaim hsign
      · exact hcomputed.within hnumber hnonneg (hmet.1 hbelow) hsign

end Displayed

/-! ## Runs -/

namespace RunStore

variable {entries : List Entry} {store : RunStore} {samples : List Sample}

/-- A store that keeps the samples of entries aggregates samples of them. -/
theorem Keeps.exists_records (h : store.Keeps entries) :
    ∃ samples, store.Records entries samples := by
  cases store with
  | writing w => exact ⟨_, .writing w⟩
  | sealed reader =>
    obtain ⟨stored, hstored, hmade⟩ := h
    exact ⟨_, .sealed hstored hmade⟩
  | lost => exact ⟨_, .lost⟩

/-- **What a run shows of a metric is computed of the values that its store aggregates.** -/
theorem Records.displayed {κ : Type} {r : Run κ} (h : r.store.Records entries samples)
    (hkeeps : r.store.Keeps entries) (metric : String) :
    Displayed (series samples metric) (r.mean? metric) (r.spread? metric) := by
  rw [Run.mean?, Run.spread?]
  generalize r.store = store at *
  cases h with
  | writing w =>
    obtain ⟨-, l, hl, hfollows⟩ := hkeeps
    rw [← hl]
    simp only [Writer.running?, hfollows.tallies, Tallies.find?_ofSamples]
    exact .tally _
  | sealed hstored hmade =>
    obtain ⟨mode, hsummary⟩ := hmade.summary
    simp only [hsummary]
    exact .summary mode _
  | lost => exact .nothing rfl

end RunStore

/-- The thresholds of a new run are valid. -/
theorem Session.Fresh.thresholdOk {κ : Type} {s : Session κ} (h : s.Fresh) :
    ∀ e ∈ s.run.config.thresholds.entries, Configuration.thresholdOk e.2 = true := by
  obtain ⟨config, collectors, run, hcreate, hrun⟩ := h
  obtain ⟨hvalid, -, rfl⟩ := Run.create_eq_ok_iff.1 hcreate
  have hconfig : s.run.config = config := congrArg Run.config hrun
  rw [hconfig]
  intro e he
  exact Configuration.thresholdOk_iff.2 ((Configuration.validate_eq_ok_iff.1 hvalid).2.2 e he)

/-- What the rule for stopping early says of all samples that a run has taken. -/
theorem Configuration.Admissible.bounds {config : Configuration} {samples : List Sample}
    (h : config.Admissible samples samples.length) {e : String × Float}
    (he : e ∈ config.thresholds.entries) (hvalid : Configuration.thresholdOk e.2 = true) :
    series samples e.1 ≠ [] ∧
      (¬ (Running.ofSeries (series samples e.1) : Tally).mean < 0.0 →
        Moments.Within (series samples e.1) (number e.2)) := by
  obtain ⟨hnumber, hnonneg⟩ := denotes_of_thresholdOk hvalid
  obtain ⟨tally, htally, -, hle⟩ := h.met e he
  rw [List.take_length] at htally
  have hne : series samples e.1 ≠ [] := by
    intro hempty
    rw [tallyOf?, if_pos hempty] at htally
    cases htally
  rw [tallyOf?, if_neg hne] at htally
  obtain rfl := Option.some.inj htally
  rw [(Displayed.ofSeries hne).2] at hle
  exact ⟨hne, Computed.accumulator.within hnumber hnonneg hle⟩

namespace Run

open Session Step

variable {κ : Type} [Device κ] {s : Session κ}

omit [Device κ] in
/-- The test of a single metric. -/
theorem isSpreadBelow_singleton (r : Run κ) (metric : String) (T : Float) :
    r.isSpreadBelow (.ofList [(metric, T)]) = true ↔
      ∃ spread, r.spread? metric = some spread ∧ spread ≤ T := by
  have hentries : (Named.ofList [(metric, T)]).entries = [(metric, T)] := rfl
  rw [isSpreadBelow, hentries, List.all_cons, List.all_nil, Bool.and_true]
  dsimp only
  cases r.spread? metric with
  | none => simp
  | some spread => simp

/-- A run that stops early has met its thresholds with all samples that it took. -/
theorem yields_admissible (hfresh : s.Fresh)
    (hsteady : ∀ c ∈ s.run.collectors, Device.Steady c.device) (hrecordable : s.run.Recordable)
    (hhorizon : s.world.horizon = none) (token : Token) :
    Yields (execute token) s fun _ t => t.run.earlyStopped = true →
      ∃ samples, t.run.Shows samples ∧ s.run.config.Admissible samples samples.length := by
  refine (yields_converged_or hfresh hsteady hrecordable hhorizon token).mono ?_
  rintro r t (⟨samples, h⟩ | ⟨hlate, -⟩) hearly
  · obtain ⟨hleast, hnone⟩ := s.run.config.isLeast_allowed h.allowed
    rw [← h.early] at hnone
    refine ⟨samples, h.shows, ?_⟩
    by_cases hsome : ∃ i, s.run.config.Admissible samples i
    · exact (hleast hsome).1.1
    · rw [(hnone (not_exists.1 hsome)).2] at hearly
      cases hearly
  · rw [hlate] at hearly
    cases hearly

/-- **A threshold that is met bounds the spread of the values, unless their mean is negative.**  In
every state that a caller can bring a new run to, the test of a metric against a valid threshold
fails if no value of it was recorded.  Otherwise the store shows a mean, and a test that passes
should say that the standard deviation of the values is at most the threshold times the magnitude of
their mean.  Up to the rounding of floats it does say so where the mean that is shown is not negative.
A negative mean passes every test, so there it says so exactly if the values are that close anyway.
In the same way a run that stops early has values within its thresholds, unless their mean is
negative. -/
theorem met_thresholds_bound_spread (hfresh : s.Fresh) :
    (∀ t, s.Leads t → ∃ entries, s.Chronicle entries t) ∧
    (∀ entries t, s.Chronicle entries t → ∃ samples, t.run.store.Records entries samples ∧
      ∀ metric T, Configuration.thresholdOk T = true →
        (series samples metric = [] → t.run.isSpreadBelow (.ofList [(metric, T)]) = false) ∧
        (series samples metric ≠ [] → ∃ mean, t.run.mean? metric = some mean ∧
          ((t.run.isSpreadBelow (.ofList [(metric, T)]) = true →
              Moments.Within (series samples metric) (number T)) ↔
            (mean < 0.0 → Moments.Within (series samples metric) (number T))) ∧
          ((series samples metric).length ≤ 2 ^ 46 → mean < 0.0 →
            t.run.isSpreadBelow (.ofList [(metric, T)]) = true))) ∧
    ∀ token, (∀ c ∈ s.run.collectors, Device.Steady c.device) → s.run.Recordable →
      s.world.horizon = none → (after (execute token) s).run.earlyStopped = true →
      ∃ samples, (after (execute token) s).run.Shows samples ∧
        ∀ e ∈ s.run.config.thresholds.entries, series samples e.1 ≠ [] ∧
          (¬ (Running.ofSeries (series samples e.1) : Tally).mean < 0.0 →
            Moments.Within (series samples e.1) (number e.2)) := by
  refine ⟨fun t ht => ht.chronicle hfresh, fun entries t h => ?_,
    fun token hsteady hrecordable hhorizon hearly => ?_⟩
  · have hkeeps := (h.traced hfresh).keeps
    obtain ⟨samples, hrecords⟩ := hkeeps.exists_records
    refine ⟨samples, hrecords, fun metric T hT => ?_⟩
    exact (hrecords.displayed hkeeps metric).bounds hT (t.run.isSpreadBelow_singleton metric T)
  · obtain ⟨samples, hshows, hadmissible⟩ := yields_after_iff.1
      (yields_admissible hfresh hsteady hrecordable hhorizon token) hearly
    exact ⟨samples, hshows, fun e he => hadmissible.bounds he (hfresh.thresholdOk e he)⟩

/-- A run with five planned iterations whose only collector shows two values, and whose threshold is
a half. -/
def twoValues (v w : Int64) : Session Instrument where
  world := { tokens := { cells := #[{}] } }
  work := { body := { script := fun _ => .succeed } }
  run :=
    { config := { executions := 5, minEarlyStop := 2, thresholds := .ofList [("value", 0.5)] }
      collectors := [⟨"value", 0, .playback { values := #[v, w], resumes := false }⟩]
      store := .writing (.ofPlanned 5) }

theorem fresh_twoValues (v w : Int64) : (twoValues v w).Fresh :=
  ⟨(twoValues v w).run.config, (twoValues v w).run.collectors, (twoValues v w).run, by rfl, rfl⟩

omit [Device κ] in
/-- The values of a metric that a sealed store shows. -/
theorem series_of_shows {r : Run κ} {samples : List Sample} (h : r.Shows samples) {metric : String}
    {vs : List Int64} (hvalues : r.reader.toOption.bind (fun reader =>
      (reader.values metric).toOption) = some (vs.map some)) : series samples metric = vs := by
  obtain ⟨reader, hstore, hshows⟩ := h
  have hread : samples.map (fun x => x.values.find? metric) = vs.map some := by
    rw [Run.reader, hstore] at hvalues
    simpa [hshows.values metric, Except.toOption] using hvalues
  have hseries : series samples metric =
      (samples.map fun x => x.values.find? metric).filterMap id := by
    rw [List.filterMap_map]
    rfl
  rw [hseries, hread]
  simp

/-- Two values are close enough to each other. -/
theorem met_thresholds_bound_spread_close :
    (twoValues 100 104).Fresh ∧
      (after (execute ⟨0, []⟩) (twoValues 100 104)).run.earlyStopped = true ∧
      Moments.Within [100, 104] (number 0.5) := by
  have hfresh := fresh_twoValues 100 104
  have hearly : (after (execute ⟨0, []⟩) (twoValues 100 104)).run.earlyStopped = true := by
    decide +kernel
  have hunbroken : ∀ c ∈ (twoValues 100 104).run.collectors, c.device.Unbroken := by decide
  obtain ⟨samples, hshows, hwithin⟩ := (met_thresholds_bound_spread hfresh).2.2 ⟨0, []⟩
    (fun c hc => (hunbroken c hc).steady) (fun hspooled => by cases hspooled) rfl hearly
  have hseries : series samples "value" = [100, 104] := series_of_shows hshows (by decide +kernel)
  refine ⟨hfresh, hearly, ?_⟩
  rw [← hseries]
  refine (hwithin ("value", 0.5) List.mem_cons_self).2 ?_
  dsimp only
  rw [hseries]
  decide +kernel

/-- Rounding alone lets two values that are not equal meet a threshold of zero. -/
example : (after (execute ⟨0, []⟩) (twoValues 9007199254740992 9007199254740993)).run.isSpreadBelow
    (.ofList [("value", 0.0)]) = true := by
  decide +kernel

/-- Two values that are far from each other meet the threshold as well, and end the run early: their
mean is negative. -/
theorem not_bounds_spread_far :
    (twoValues (-1) (-100)).Fresh ∧
      (after (execute ⟨0, []⟩) (twoValues (-1) (-100))).run.earlyStopped = true ∧
      (after (execute ⟨0, []⟩) (twoValues (-1) (-100))).run.isSpreadBelow
        (.ofList [("value", 0.5)]) = true ∧
      (∃ samples, (after (execute ⟨0, []⟩) (twoValues (-1) (-100))).run.Shows samples ∧
        series samples "value" = [-1, -100]) ∧
      number 0.5 * |Moments.average [-1, -100]| < Moments.deviation [-1, -100] := by
  have hearly : (after (execute ⟨0, []⟩) (twoValues (-1) (-100))).run.earlyStopped = true := by
    decide +kernel
  have hunbroken : ∀ c ∈ (twoValues (-1) (-100)).run.collectors, c.device.Unbroken := by decide
  obtain ⟨samples, hshows, -⟩ := yields_after_iff.1 (yields_admissible (fresh_twoValues _ _)
    (fun c hc => (hunbroken c hc).steady) (fun hspooled => by cases hspooled) rfl ⟨0, []⟩) hearly
  have hhalf : number 0.5 = 1 / 2 := by
    have hunpack : (0.5 : Float).toModel.unpack = .finite .positive (2 ^ 52) (-53) (by positivity) :=
      rfl
    rw [number, hunpack, value_finite, signed]
    norm_num
  have haverage : (Moments.meanOf [-1, -100] : ℚ) = -101 / 2 := by decide +kernel
  have hvariance : (Moments.varianceAbout (-101 / 2) [-1, -100] : ℚ) = 9801 / 2 := by decide +kernel
  refine ⟨fresh_twoValues _ _, hearly, by decide +kernel,
    ⟨samples, hshows, series_of_shows hshows (by decide +kernel)⟩, ?_⟩
  rw [hhalf, Moments.average, Moments.deviation, haverage, hvariance, Real.lt_sqrt (by positivity)]
  norm_num

end Run

end Gauge
