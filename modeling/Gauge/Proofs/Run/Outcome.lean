import Gauge.Proofs.Run.Execution

/-!
# How a run ends

A run whose cues all succeed is complete, and its ceilings are looked at; where a cue fails, the run
fails as this cue does.  In both cases the store is sealed with the samples that the cues have
measured.

## Main definitions

* `Configuration.Judges` — the answer of a run that is complete.
* `Run.Notes` — a step before the end of writing that cannot fail.

## Main statements

* `Run.yields_concluded` — what a run leaves that notes something before the end of writing.
* `Run.yields_execute` — what a whole run leaves.
* `Run.execute_outcome` — the outcome of a run, with the first failure as its answer.
-/

namespace Gauge

open Cue

/-! ## Ceilings -/

namespace Configuration

/-- The mean of a metric in samples has reached a ceiling. -/
def Reaches (config : Configuration) (samples : List Sample) (metric : String) (ceiling : Int64)
    (mean : Float) : Prop :=
  ∃ summary,
    Summary.ofSeriesIn (.ofPlanned config.executions) (series samples metric) = some summary ∧
    summary.mean = mean ∧ Float.ofInt ceiling.toInt ≤ mean

/-- The answer of a run that is complete: it succeeds where no mean has reached its ceiling, and
otherwise the least metric whose mean has done so is reported. -/
inductive Judges (config : Configuration) (samples : List Sample) : Except Halt Unit → Prop
  | accepted : (∀ e ∈ config.ceilings.entries, ∀ mean, ¬ config.Reaches samples e.1 e.2 mean) →
      Judges config samples (.ok ())
  | refused (metric : String) (ceiling : Int64) (mean : Float) :
      (metric, ceiling) ∈ config.ceilings.entries → config.Reaches samples metric ceiling mean →
      (∀ e ∈ config.ceilings.entries, e.1 < metric →
        ∀ mean, ¬ config.Reaches samples e.1 e.2 mean) →
      Judges config samples (.error (.failure (.assertion metric mean ceiling)))

end Configuration

/-- A sealed store judges its samples. -/
theorem Reader.judges_checkCeilings {r : Reader} {config : Configuration} {samples : List Sample}
    (hsummary : ∀ metric, r.summary? metric =
      Summary.ofSeriesIn (.ofPlanned config.executions) (series samples metric)) :
    config.Judges samples (match r.checkCeilings config.ceilings with
      | .ok () => .ok ()
      | .error f => .error (.failure f)) := by
  let test (e : String × Int64) : Option Failure :=
    (r.summary? e.1).bind fun s =>
      if Float.ofInt e.2.toInt ≤ s.mean then some (.assertion e.1 s.mean e.2) else none
  have hnone {e : String × Int64} (h : test e = none) (mean : Float) :
      ¬ config.Reaches samples e.1 e.2 mean := by
    rintro ⟨summary, hs, rfl, hle⟩
    simp [test, hsummary, hs, hle] at h
  rw [Reader.checkCeilings]
  cases hfind : config.ceilings.entries.findSome? test with
  | none => exact .accepted fun e he => hnone (List.findSome?_eq_none_iff.1 hfind e he)
  | some f =>
    obtain ⟨before, e, rest, hentries, he, hbefore⟩ := List.findSome?_eq_some_iff.1 hfind
    obtain ⟨summary, hs, hf⟩ := Option.bind_eq_some_iff.1 he
    by_cases hle : Float.ofInt e.2.toInt ≤ summary.mean
    · rw [if_pos hle] at hf
      cases hf
      have hsorted := config.ceilings.sorted
      rw [hentries] at hsorted
      refine .refused e.1 e.2 summary.mean ?_ ⟨summary, hsummary e.1 ▸ hs, rfl, hle⟩ ?_
      · rw [hentries]
        exact List.mem_append_right _ List.mem_cons_self
      · intro d hd hlt
        rw [hentries] at hd
        rcases List.mem_append.1 hd with hd | hd
        · exact hnone (hbefore d hd)
        · rcases List.mem_cons.1 hd with rfl | hd
          · exact absurd hlt (String.lt_irrefl _)
          · have hgt := (List.pairwise_cons.1 (List.pairwise_append.1 hsorted).2.1).1 d hd
            exact absurd (String.lt_trans hlt hgt) (String.lt_irrefl _)
    · rw [if_neg hle] at hf
      cases hf

/-! ## Whole runs -/

namespace Run

open Session Step

variable {κ : Type} {s t : Session κ} {token : Token}

/-- A run whose store is sealed looks at its ceilings. -/
theorem checkOwnCeilings_eq {reader : Reader} (h : s.run.store = .sealed reader) :
    checkOwnCeilings s =
      (ofResult (reader.checkCeilings s.run.config.ceilings) : Step κ Unit) s := by
  have hreader : s.run.reader = .ok reader := by rw [Run.reader, h]
  have hrun : (theRun : Step κ (Run κ)) s = .ok s.run s := rfl
  rw [checkOwnCeilings, bind_of_ok hrun]
  cases hceilings : s.run.config.ceilings.isEmpty with
  | true =>
    have hnil : s.run.config.ceilings.entries = [] := List.isEmpty_iff.1 hceilings
    rw [Reader.checkCeilings, hnil]
    rfl
  | false =>
    change checkCeilings s.run.config.ceilings s = _
    rw [checkCeilings, bind_of_ok hrun, hreader]

theorem onward_marked (s : Session κ) (stopped : Bool) : s.Onward (s.marked stopped) :=
  onward_run rfl rfl rfl

variable [Device κ]

/-- A step between the iterations and the end of writing that cannot fail and calls nothing.  It
goes by the samples that there are, which have the names of the collectors. -/
def Notes (s : Session κ) (note : Step κ Unit) (noted : Ledger → Ledger) : Prop :=
  ∀ l u, Tracks s l false u → (∀ x ∈ l.samples, x.values.names = (values s.run).names) →
    Yields note u (Called s (noted l) false u [])

/-- The iterations of a run have succeeded, and so do the rest of the run and the end of writing. -/
theorem yields_rest {l : Ledger} {u : Session κ} {note : Step κ Unit} {noted : Ledger → Ledger}
    (hnote : Notes s note noted) (htracks : Tracks s l false u)
    (hnames : ∀ x ∈ l.samples, x.values.names = (values s.run).names) :
    Yields (do note; finalize none; checkOwnCeilings) u fun r t =>
      Sealed s (noted l) false u none (.ok ()) t ∧ s.run.config.Judges (noted l).samples r := by
  rw [yields_bind]
  refine (hnote l u htracks hnames).mono fun r v hv => ?_
  rw [hv.answer]
  dsimp only
  rw [yields_bind]
  refine (yields_finalize_any hv.tracks none).mono fun r t ht => ?_
  rw [ht.answer]
  obtain ⟨reader, hstore, -, hsummary⟩ := ht.reader
  have hsealed : Sealed s (noted l) false u none (.ok ()) t :=
    { ht with
      answer := rfl
      early := ht.early.trans hv.early
      work := ht.work.trans hv.work
      beats := by rw [ht.beats, hv.beats, List.append_nil] }
  have hjudges := Reader.judges_checkCeilings hsummary
  refine Yields.congr (y := ofResult (reader.checkCeilings s.run.config.ceilings)) ?_
    (ht.config ▸ checkOwnCeilings_eq hstore)
  cases hchecked : reader.checkCeilings s.run.config.ceilings with
  | ok _ | error f =>
    rw [hchecked] at hjudges
    exact ⟨hsealed, hjudges⟩

/-- **What a run leaves whose order is settled.**  Either all of its cues succeed, and the store is
sealed and the ceilings decide, or one of them fails, and the store is sealed with this failure. -/
theorem yields_concluded {note : Step κ Unit} {noted : Ledger → Ledger} (hnote : Notes s note noted)
    (warm : Bool) (token : Token) (htracks : s.Tracks {} false s.prepared) :
    Yields (settle (loop warm token) >>= conclude (do note; finalize none; checkOwnCeilings))
      s.prepared fun r t => ∃ n l, l = ledger token {} (s.loopCues warm n) s.prepared ∧
      n = s.run.config.allowed l.samples ∧
      EndsAs (loop warm token) (do
        performEach token (s.loopCues warm n)
        markEarly (s.run.config.stopsFrom l.samples 0 s.run.config.executions)) s.prepared ∧
      ((∃ u, performEach token (s.loopCues warm n) s.prepared = .ok () u ∧
          LeftAll token s {} false false s.prepared (s.loopCues warm n) (.ok ()) u ∧
          Sealed s (noted l) false
            (u.marked (s.run.config.stopsFrom l.samples 0 s.run.config.executions)) none (.ok ())
            t ∧
          s.run.config.Judges (noted l).samples r) ∨
        ∃ f now u, performEach token (s.loopCues warm n) s.prepared = .error (.failure f) u ∧
          LeftAll token s {} false false s.prepared (s.loopCues warm n) (.error (.failure f)) u ∧
          Sealed s l now u (some f) r t ∧ u.Onward t) := by
  obtain ⟨n, l, hl, hn, hends, hconclude⟩ :=
    conclude_eq warm token (do note; finalize none; checkOwnCeilings) htracks
  have hleft := performedEach token htracks (s.bracketAll_loopCues warm n)
  cases hcues : performEach token (s.loopCues warm n) s.prepared with
  | ok _ u =>
    have hleft := hleft.of_ok hcues
    have hend : Tracks s l false
        (u.marked (s.run.config.stopsFrom l.samples 0 s.run.config.executions)) :=
      { hl ▸ (hleft.ok () rfl).1 with
        onward := (hleft.ok () rfl).1.onward.trans (onward_marked u _) }
    have hnames : ∀ x ∈ l.samples, x.values.names = (values s.run).names := by
      rw [hl]
      exact names_ledger htracks (s.bracketAll_loopCues warm n) fun _ hx => by cases hx
    have hmarked := bind_of_ok hcues fun _ =>
      markEarly (s.run.config.stopsFrom l.samples 0 s.run.config.executions)
    refine Yields.congr (y := do note; finalize none; checkOwnCeilings) ?_
      (hconclude.trans (bind_of_ok (settle_of_ok hmarked) _))
    refine (yields_rest hnote hend hnames).mono fun r t ⟨hsealed, hjudges⟩ => ?_
    exact ⟨n, l, hl, hn, hends, .inl ⟨u, hcues, hleft, hsealed, hjudges⟩⟩
  | error e u =>
    have hleft := hleft.of_error hcues
    obtain ⟨f, -, -, -, rfl, -, -, ⟨now, hend⟩, -⟩ := hleft.error e rfl
    rw [← hl] at hend
    have hfailed := bind_of_error hcues fun _ =>
      markEarly (s.run.config.stopsFrom l.samples 0 s.run.config.executions)
    refine Yields.congr (y := finalize (some f)) ?_
      (hconclude.trans (bind_of_ok (settle_of_failure hfailed) _))
    refine Yields.mono ((yields_finalize_any hend (some f)).and (onwards_finalize (some f) u)) ?_
    rintro r t ⟨hsealed, honward⟩
    exact ⟨n, l, hl, hn, hends, .inr ⟨f, now, u, hcues, hleft, hsealed, honward⟩⟩

/-- **What a whole run leaves.** -/
theorem yields_execute (hfresh : s.Fresh) (hsteady : ∀ c ∈ s.run.collectors, Device.Steady c.device)
    (hrecordable : s.run.Recordable) (hhorizon : s.world.horizon = none) (token : Token) :
    Yields (execute token) s fun r t => ∃ n l, l = ledger token {} (s.cues n) s.prepared ∧
      n = s.run.config.allowed l.samples ∧
      ((∃ u, performEach token (s.cues n) s.prepared = .ok () u ∧
          LeftAll token s {} false false s.prepared (s.cues n) (.ok ()) u ∧
          Sealed s l false
            (u.marked (s.run.config.stopsFrom l.samples 0 s.run.config.executions)) none (.ok ())
            t ∧
          s.run.config.Judges l.samples r) ∨
        ∃ f now u, performEach token (s.cues n) s.prepared = .error (.failure f) u ∧
          LeftAll token s {} false false s.prepared (s.cues n) (.error (.failure f)) u ∧
          Sealed s l now u (some f) r t ∧ u.Onward t) := by
  have hnote : Notes s (pure ()) id := fun l u htracks _ =>
    ⟨rfl, htracks, rfl, rfl, (List.append_nil _).symm⟩
  have htracks : s.Tracks {} false s.prepared := hfresh.tracks hsteady hrecordable hhorizon
  refine Yields.congr ((yields_concluded hnote true token htracks).mono ?_)
    (conclude_loop true token _ s.prepared)
  rintro r t ⟨n, l, hl, hn, -, h⟩
  exact ⟨n, l, hl, hn, h⟩

omit [Device κ] in
theorem isFinalized_of_sealed {r : Run κ} {reader : Reader} (h : r.store = .sealed reader) :
    r.isFinalized = true := by
  rw [isFinalized, h]

/-- What a run leaves, and the first failure as its answer. -/
theorem yields_outcome (hfresh : s.Fresh) (hsteady : ∀ c ∈ s.run.collectors, Device.Steady c.device)
    (hrecordable : s.run.Recordable) (hhorizon : s.world.horizon = none) (token : Token) :
    Yields (execute token) s fun r t => ∃ n samples,
      samples = (ledger token {} (s.cues n) s.prepared).samples ∧
      n = s.run.config.allowed samples ∧
      t.run.isFinalized ∧ t.run.Shows samples ∧ t.run.executions = samples.length ∧
      ((∃ done cue rest f u, s.cues n = done ++ cue :: rest ∧
          Breaks token s.prepared done cue f u ∧ samples.length = done.count write ∧
          t.run.status = .failed ∧ r = .error (.failure f)) ∨
        ∃ u, performEach token (s.cues n) s.prepared = .ok () u ∧ samples.length = n ∧
          t.run.status = .complete ∧ s.run.config.Judges samples r) := by
  refine (yields_execute hfresh hsteady hrecordable hhorizon token).mono ?_
  rintro r t ⟨n, l, rfl, hn, h⟩
  refine ⟨n, _, rfl, hn, ?_⟩
  rcases h with ⟨u, hcues, -, hsealed, hjudges⟩ | ⟨f, now, u, hcues, hleft, hsealed, -⟩
  · obtain ⟨reader, hstore, hshows, -⟩ := hsealed.reader
    have hlength := length_ledger_of_ok (l := {}) hcues
    rw [count_write_cues] at hlength
    exact ⟨isFinalized_of_sealed hstore, ⟨reader, hstore, hshows⟩, hsealed.executions,
      .inr ⟨u, hcues, hlength.trans (Nat.zero_add n), hsealed.status, hjudges⟩⟩
  · obtain ⟨reader, hstore, hshows, -⟩ := hsealed.reader
    obtain ⟨g, done, cue, rest, hg, hsplit, hbreaks, -⟩ := hleft.error _ rfl
    cases hg
    have hlength : (ledger token {} (s.cues n) s.prepared).samples.length = done.count write := by
      obtain ⟨v, hdone, hcue, -⟩ := hbreaks
      rw [hsplit, ledger_append_of_ok _ hdone, ledger_cons_of_error hcue, length_ledger_of_ok hdone]
      exact Nat.zero_add _
    exact ⟨isFinalized_of_sealed hstore, ⟨reader, hstore, hshows⟩, hsealed.executions,
      .inl ⟨done, cue, rest, f, u, hsplit, hbreaks, hlength, hsealed.status, hsealed.answer⟩⟩

/-- **Every outcome of a run is sealed, and the first failure is its answer.**  The store shows the
samples that were written before the first cue that failed, and the run is marked as failed; the
answer is the failure of this cue.  Where no cue fails the run is complete, and the answer is that
of its ceilings. -/
theorem execute_outcome (hfresh : s.Fresh)
    (hsteady : ∀ c ∈ s.run.collectors, Device.Steady c.device) (hrecordable : s.run.Recordable)
    (hhorizon : s.world.horizon = none) (token : Token) :
    ∃ n samples, samples = (ledger token {} (s.cues n) s.prepared).samples ∧
      n = s.run.config.allowed samples ∧
      (after (execute token) s).run.isFinalized ∧ (after (execute token) s).run.Shows samples ∧
      (after (execute token) s).run.executions = samples.length ∧
      ((∃ done cue rest f u, s.cues n = done ++ cue :: rest ∧
          Breaks token s.prepared done cue f u ∧ samples.length = done.count write ∧
          (after (execute token) s).run.status = .failed ∧
          answer (execute token) s = .error (.failure f)) ∨
        ∃ u, performEach token (s.cues n) s.prepared = .ok () u ∧ samples.length = n ∧
          (after (execute token) s).run.status = .complete ∧
          s.run.config.Judges samples (answer (execute token) s)) :=
  yields_iff.1 (yields_outcome hfresh hsteady hrecordable hhorizon token)

/-- A run whose hook after the second measured iteration fails with a failure in two contexts. -/
def teardownFails : Session Instrument where
  world := { tokens := { cells := #[{}] } }
  work :=
    { body := { script := fun _ => .succeed }
      after := some { script := fun k =>
        if k = 2 then .fail (.carried .notFinalized ["outer", "inner"]) else .succeed } }
  run :=
    { config := { warmup := 1, executions := 3 }
      collectors := [⟨"time", 10, .summed .elapsed {}⟩]
      store := .writing (.ofPlanned 3) }

/-- Whether a step has failed because samples were not sealed. -/
def answersNotFinalized : Except Halt Unit → Bool
  | .error (.failure .notFinalized) => true
  | _ => false

theorem eq_of_answersNotFinalized {r : Except Halt Unit} (h : answersNotFinalized r = true) :
    r = .error (.failure .notFinalized) := by
  unfold answersNotFinalized at h
  split at h
  · rfl
  · cases h

/-- The sample of the second iteration is kept, and the failure comes out unchanged. -/
theorem execute_outcome_teardownFails :
    teardownFails.Fresh ∧ (∀ c ∈ teardownFails.run.collectors, Device.Steady c.device) ∧
      teardownFails.run.Recordable ∧ teardownFails.world.horizon = none ∧
      answer (execute ⟨0, []⟩) teardownFails = .error (.failure .notFinalized) ∧
      (after (execute ⟨0, []⟩) teardownFails).run.status = .failed ∧
      ∃ samples, (after (execute ⟨0, []⟩) teardownFails).run.Shows samples ∧
        samples.length = 2 := by
  have hfresh : teardownFails.Fresh :=
    ⟨teardownFails.run.config, teardownFails.run.collectors, teardownFails.run, rfl, rfl⟩
  have hunbroken : ∀ c ∈ teardownFails.run.collectors, c.device.Unbroken := by decide
  have hsteady : ∀ c ∈ teardownFails.run.collectors, Device.Steady c.device :=
    fun c hc => (hunbroken c hc).steady
  have hrecordable : teardownFails.run.Recordable := fun hspooled => by cases hspooled
  have hanswer : answer (execute ⟨0, []⟩) teardownFails = .error (.failure .notFinalized) :=
    eq_of_answersNotFinalized (by decide +kernel)
  have hexecutions : (after (execute ⟨0, []⟩) teardownFails).run.executions = 2 := by
    decide +kernel
  have hstatus : (after (execute ⟨0, []⟩) teardownFails).run.status = .failed := by decide +kernel
  obtain ⟨n, samples, -, -, -, hshows, hsamples, -⟩ :=
    execute_outcome hfresh hsteady hrecordable rfl ⟨0, []⟩
  exact ⟨hfresh, hsteady, hrecordable, rfl, hanswer, hstatus, samples, hshows,
    hsamples.symm.trans hexecutions⟩

end Run

end Gauge
