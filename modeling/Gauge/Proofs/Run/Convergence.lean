import Gauge.Proofs.Binary64.Comparison
import Gauge.Proofs.Run.Outcome

/-!
# How many iterations a run measures

A run whose hooks all succeed and that nobody cancels measures iterations up to the first number
after which it may stop early, or all that are planned.

## Main definitions

* `Configuration.Admissible` — a number of iterations after which a run may stop early.
* `Workload.Succeeds` — no call of a hook has failed.

## Main statements

* `Configuration.isLeast_allowed` — the rule for stopping early finds the least admissible number.
* `Run.execute_stops_at_least` — so does a run.
-/

namespace Gauge

open Cue

namespace Configuration

variable {config : Configuration} {samples : List Sample} {i : Nat}

/-- A run with the given samples may stop early after `i` iterations: these are enough and no more
than planned, there are thresholds, and every threshold is met by the relative standard deviation of
its metric over the first `i` samples. -/
structure Admissible (config : Configuration) (samples : List Sample) (i : Nat) : Prop where
  enough : max 1 config.minEarlyStop ≤ i
  planned : i ≤ config.executions
  enabled : config.thresholds.entries ≠ []
  met : ∀ e ∈ config.thresholds.entries, ∃ tally : Tally,
    tallyOf? (series (samples.take i) e.1) = some tally ∧
      tally.relativeStdDev.isNaN = false ∧ tally.relativeStdDev ≤ e.2

/-- The rule for stopping early admits these numbers. -/
theorem stopsAfter_take_iff (hfirst : 1 ≤ i) (hplanned : i ≤ config.executions)
    (hsamples : i ≤ samples.length) :
    config.stopsAfter (samples.take i) = true ↔ config.Admissible samples i := by
  have hlength : (samples.take i).length = i := List.length_take_of_le hsamples
  rw [stopsAfter, hlength, Bool.and_eq_true, Bool.and_eq_true, List.all_eq_true]
  constructor
  · rintro ⟨⟨hleast, henabled⟩, hall⟩
    refine ⟨max_le hfirst (of_decide_eq_true hleast), hplanned, ?_, fun e he => ?_⟩
    · rintro hnil
      simp [earlyStopEnabled, Named.isEmpty, hnil] at henabled
    · obtain ⟨metric, threshold⟩ := e
      have hmet := hall (metric, threshold) he
      dsimp only at hmet
      split at hmet
      · next tally htally =>
        have hle := of_decide_eq_true hmet
        exact ⟨tally, htally, isNaN_of_le hle, hle⟩
      · cases hmet
  · intro h
    refine ⟨⟨decide_eq_true ((le_max_right _ _).trans h.enough), ?_⟩, fun e he => ?_⟩
    · simpa [earlyStopEnabled, Named.isEmpty] using h.enabled
    · obtain ⟨metric, threshold⟩ := e
      obtain ⟨tally, htally, -, hle⟩ := h.met (metric, threshold) he
      dsimp only
      rw [htally]
      exact decide_eq_true hle

/-- **The rule for stopping early finds the least admissible number**, where it goes by as many
samples as it allows. -/
theorem isLeast_allowed (h : samples.length = config.allowed samples) :
    ((∃ i, config.Admissible samples i) →
      IsLeast {i | config.Admissible samples i} samples.length ∧
        config.stopsFrom samples 0 config.executions = true) ∧
    ((∀ i, ¬ config.Admissible samples i) →
      samples.length = config.executions ∧
        config.stopsFrom samples 0 config.executions = false) := by
  rw [allowed] at h
  cases hfind : (List.range' 1 config.executions).find? fun i =>
      config.stopsAfter (samples.take i) with
  | some n =>
    rw [hfind, Option.getD_some] at h
    obtain ⟨hstops, hmem, hleast⟩ := List.find?_range'_eq_some.1 hfind
    have hrange := List.mem_range'_1.1 hmem
    have hadmissible : config.Admissible samples n :=
      (stopsAfter_take_iff hrange.1 (by omega) h.ge).1 hstops
    refine ⟨fun _ => ⟨⟨h ▸ hadmissible, fun i hi => ?_⟩, ?_⟩, fun hnone => ?_⟩
    · by_contra hlt
      have hearlier := hleast i ((le_max_left _ _).trans hi.enough) (by omega)
      rw [(stopsAfter_take_iff ((le_max_left _ _).trans hi.enough) hi.planned (by omega)).2 hi]
        at hearlier
      cases hearlier
    · exact List.any_eq_true.2 ⟨n, hmem, hstops⟩
    · exact absurd hadmissible (hnone n)
  | none =>
    rw [hfind, Option.getD_none] at h
    have hnone := List.find?_eq_none.1 hfind
    refine ⟨?_, fun _ => ⟨h, ?_⟩⟩
    · rintro ⟨i, hi⟩
      have hfirst : 1 ≤ i := (le_max_left _ _).trans hi.enough
      have hplanned := hi.planned
      refine absurd ((stopsAfter_take_iff hfirst hi.planned (by omega)).2 hi) (hnone i ?_)
      exact List.mem_range'_1.2 ⟨hfirst, by omega⟩
    · exact List.any_eq_false.2 hnone

end Configuration

/-- No call of a hook has failed between two workloads. -/
def Workload.Succeeds (work work' : Workload) : Prop :=
  ∀ stage hook hook', work.hook? stage = some hook → work'.hook? stage = some hook' →
    ∀ k, hook.calls ≤ k → k < hook'.calls → (hook.script k).failure? = none

namespace Run

open Session Step

variable {κ : Type} [Device κ] {s t u : Session κ} {token : Token} {done : List Cue} {cue : Cue}
  {f : Failure}

/-- Cues do not break off where no call of a hook fails and nobody cancels the token. -/
theorem not_breaks (hwork : s.work.Succeeds t.work)
    (htoken : t.world.tokens.isCancelled token = false) : ¬ Breaks token s done cue f t := by
  rintro ⟨u, -, -, hgrows, hfails⟩
  cases cue with
  | checkpoint =>
    obtain ⟨-, hcancelled⟩ := hfails
    simp [htoken] at hcancelled
  | hook stage =>
    obtain ⟨action, hnext, hraises | ⟨-, hcancelled⟩⟩ := hfails
    · obtain ⟨called, hcalled, hwork'⟩ := Option.map_eq_some_iff.1 hnext
      obtain ⟨rfl, hafter⟩ := Prod.mk.inj hwork'
      obtain ⟨hook, hhook, hscript, hcalls⟩ := hgrows stage called hcalled
      have hlast : t.work.hook? stage = some { called with calls := called.calls + 1 } := by
        rw [← hafter, Workload.hook?_setHook, if_pos rfl]
      have hnone := hwork stage hook _ hhook hlast called.calls hcalls (Nat.lt_succ_self _)
      rw [← hscript, ← Option.not_isSome_iff_eq_none] at hnone
      exact hnone (Option.isSome_iff_exists.2 ⟨f, Action.raises_iff.1 hraises⟩)
    · simp [htoken] at hcancelled
  | start => exact hfails
  | stop => exact hfails
  | write => exact hfails

/-- What a run without failures leaves. -/
structure Converged (s t : Session κ) (samples : List Sample) : Prop where
  shows : t.run.Shows samples
  executions : t.run.executions = samples.length
  beats : t.world.beats = s.world.beats ++ s.schedule samples.length
  allowed : samples.length = s.run.config.allowed samples
  early : t.run.earlyStopped = s.run.config.stopsFrom samples 0 s.run.config.executions

/-- A run measures as many iterations as the rule for stopping early allows, or it does not stop
early, as a call of a hook fails or somebody cancels the token. -/
theorem yields_converged_or (hfresh : s.Fresh)
    (hsteady : ∀ c ∈ s.run.collectors, Device.Steady c.device) (hrecordable : s.run.Recordable)
    (hhorizon : s.world.horizon = none) (token : Token) :
    Yields (execute token) s fun _ t => (∃ samples, Converged s t samples) ∨
      t.run.earlyStopped = false ∧
        (t.world.tokens.isCancelled token = false → ¬ s.work.Succeeds t.work) := by
  have hnew : s.run.earlyStopped = false := congrArg Run.earlyStopped hfresh.run_eq
  refine (yields_execute hfresh hsteady hrecordable hhorizon token).mono ?_
  rintro r t ⟨n, l, hl, hn, h⟩
  rcases h with ⟨u, hcues, hleft, hsealed, -⟩ | ⟨f, now, u, -, hleft, hsealed, honward⟩
  · obtain ⟨reader, hstore, hshows, -⟩ := hsealed.reader
    have hlength : l.samples.length = n := by
      rw [hl, length_ledger_of_ok hcues, count_write_cues]
      exact Nat.zero_add n
    have hbeats := (hleft.ok () rfl).2
    rw [flatMap_beats_cues, ← hlength] at hbeats
    exact .inl ⟨l.samples,
      { shows := ⟨reader, hstore, hshows⟩
        executions := hsealed.executions
        beats := (hsealed.beats.trans (List.append_nil _)).trans hbeats
        allowed := hlength.trans hn
        early := by
          rw [hsealed.early, marked, hleft.early, prepared, hnew, Bool.false_or] }⟩
  · obtain ⟨g, done, cue, rest, -, -, hbreaks, -⟩ := hleft.error _ rfl
    refine .inr ⟨by rw [hsealed.early, hleft.early, prepared, hnew], fun htoken hwork => ?_⟩
    rw [hsealed.work] at hwork
    exact absurd hbreaks (not_breaks hwork (honward.uncancelled htoken))

theorem yields_converged (hfresh : s.Fresh)
    (hsteady : ∀ c ∈ s.run.collectors, Device.Steady c.device) (hrecordable : s.run.Recordable)
    (hhorizon : s.world.horizon = none) (token : Token) :
    Yields (execute token) s fun _ t => t.world.tokens.isCancelled token = false →
      s.work.Succeeds t.work → ∃ samples, Converged s t samples := by
  refine (yields_converged_or hfresh hsteady hrecordable hhorizon token).mono ?_
  rintro r t (hconverged | ⟨-, hfailed⟩) htoken hwork
  · exact hconverged
  · exact absurd hwork (hfailed htoken)

/-- **A run stops early after the least admissible number of iterations.**  It measures as many, or
all that are planned if no number is admissible, and is marked exactly where there is one. -/
theorem execute_stops_at_least (hfresh : s.Fresh)
    (hsteady : ∀ c ∈ s.run.collectors, Device.Steady c.device) (hrecordable : s.run.Recordable)
    (hhorizon : s.world.horizon = none) (token : Token)
    (htoken : (after (execute token) s).world.tokens.isCancelled token = false)
    (hwork : s.work.Succeeds (after (execute token) s).work) :
    ∃ samples, (after (execute token) s).run.Shows samples ∧
      (after (execute token) s).run.executions = samples.length ∧
      samples.length ≤ s.run.config.executions ∧
      (after (execute token) s).world.beats = s.world.beats ++ s.schedule samples.length ∧
      ((∃ i, s.run.config.Admissible samples i) →
        IsLeast {i | s.run.config.Admissible samples i} samples.length ∧
          (after (execute token) s).run.earlyStopped = true) ∧
      ((∀ i, ¬ s.run.config.Admissible samples i) →
        samples.length = s.run.config.executions ∧
          (after (execute token) s).run.earlyStopped = false) ∧
      ((∃ e ∈ s.run.config.thresholds.entries, series samples e.1 = []) →
        (after (execute token) s).run.earlyStopped = false) := by
  obtain ⟨samples, h⟩ := yields_after_iff.1
    (yields_converged hfresh hsteady hrecordable hhorizon token) htoken hwork
  obtain ⟨hleast, hnone⟩ := s.run.config.isLeast_allowed h.allowed
  rw [← h.early] at hleast hnone
  refine ⟨samples, h.shows, h.executions, ?_, h.beats, hleast, hnone, ?_⟩
  · by_cases hadmissible : ∃ i, s.run.config.Admissible samples i
    · exact (hleast hadmissible).1.1.planned
    · exact (hnone (not_exists.1 hadmissible)).1.le
  · rintro ⟨e, he, hempty⟩
    refine (hnone fun i hi => ?_).2
    obtain ⟨tally, htally, -⟩ := hi.met e he
    have hbefore : series (samples.take i) e.1 = [] := by
      rw [← List.take_append_drop i samples, series_append] at hempty
      exact (List.append_eq_nil_iff.1 hempty).1
    simp [hbefore, tallyOf?] at htally

/-- A run with five planned iterations whose only collector always shows the same value. -/
def sameValues : Session Instrument where
  world := { tokens := { cells := #[{}] } }
  work := { body := { script := fun _ => .succeed } }
  run :=
    { config := { executions := 5, minEarlyStop := 2, thresholds := .ofList [("value", 0.5)] }
      collectors := [⟨"value", 0, .playback { values := #[5], resumes := false }⟩]
      store := .writing (.ofPlanned 5) }

/-- Two iterations are enough. -/
theorem execute_stops_at_least_sameValues :
    sameValues.Fresh ∧ (∀ c ∈ sameValues.run.collectors, Device.Steady c.device) ∧
      sameValues.run.Recordable ∧ sameValues.world.horizon = none ∧
      (after (execute ⟨0, []⟩) sameValues).world.tokens.isCancelled ⟨0, []⟩ = false ∧
      sameValues.work.Succeeds (after (execute ⟨0, []⟩) sameValues).work ∧
      ∃ samples, (after (execute ⟨0, []⟩) sameValues).run.Shows samples ∧
        samples.length = 2 ∧ IsLeast {i | sameValues.run.config.Admissible samples i} 2 := by
  have hfresh : sameValues.Fresh :=
    ⟨sameValues.run.config, sameValues.run.collectors, sameValues.run, by rfl, rfl⟩
  have hunbroken : ∀ c ∈ sameValues.run.collectors, c.device.Unbroken := by decide
  have hsteady : ∀ c ∈ sameValues.run.collectors, Device.Steady c.device :=
    fun c hc => (hunbroken c hc).steady
  have hrecordable : sameValues.run.Recordable := fun hspooled => by cases hspooled
  have htoken : (after (execute ⟨0, []⟩) sameValues).world.tokens.isCancelled ⟨0, []⟩ = false := by
    decide +kernel
  have hwork : sameValues.work.Succeeds (after (execute ⟨0, []⟩) sameValues).work := by
    intro stage hook hook' hhook _ k _ _
    cases stage <;> cases hhook
    rfl
  obtain ⟨samples, hshows, hexecutions, -, -, hleast, hnone, -⟩ :=
    execute_stops_at_least hfresh hsteady hrecordable rfl ⟨0, []⟩ htoken hwork
  have hlength : samples.length = 2 := hexecutions.symm.trans (by decide +kernel)
  have hearly : (after (execute ⟨0, []⟩) sameValues).run.earlyStopped = true := by decide +kernel
  refine ⟨hfresh, hsteady, hrecordable, rfl, htoken, hwork, samples, hshows, hlength, ?_⟩
  rw [← hlength]
  refine (hleast ?_).1
  by_contra hnot
  rw [(hnone (not_exists.1 hnot)).2] at hearly
  cases hearly

end Run

end Gauge
