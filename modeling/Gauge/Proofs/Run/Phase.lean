import Gauge.Proofs.Instrument
import Gauge.Proofs.Run.Convergence
import Gauge.Proofs.Store.Faithful
import Gauge.Throughput

/-!
# One phase of a throughput run

A phase is a run that notes its size on its last sample before its store is sealed.  Where no
collector breaks off and every record fits a frame, the store is sealed whatever happens: with the
size if the iterations have succeeded, and without it otherwise.

## Main definitions

* `Run.Takes` — every sample of a run can be written, also with a user value.
* `Phase` — a phase that has ended.
* `Phase.Completed`, `Phase.Broken` — its iterations have succeeded, or one of them has failed.
* `Phase.Holds` — what the sealed store of a phase shows.

## Main statements

* `Run.called_attach` — a user value that goes to the latest sample.
* `Run.exists_phase` — a phase always ends, and its store holds what it has measured.
-/

namespace Gauge

open Cue

/-! ## User values -/

namespace Ledger

variable {l : Ledger} {name : String} {value : Int64}

/-- A user value that the latest sample takes is the only change. -/
theorem samples_attach {last : Sample} (hlast : l.samples.getLast? = some last)
    (hnew : last.values.find? name = none) :
    (l.perform (.attach name value)).2.samples =
      l.samples.dropLast ++ [{ last with values := last.values.insert name value }] := by
  have hheld : last.values.contains name = false := Named.contains_eq_false_iff.2 hnew
  simp [perform, hlast, hheld]

/-- Where there is no sample, there is nothing to attach a value to. -/
theorem attach_of_empty (h : l.samples = []) : (l.perform (.attach name value)).2 = l := by
  simp [perform, h]

theorem length_attach (value : Int64) (h : ∀ x ∈ l.samples, x.values.find? name = none) :
    (l.perform (.attach name value)).2.samples.length = l.samples.length := by
  cases hlast : l.samples.getLast? with
  | none => rw [attach_of_empty (List.getLast?_eq_none_iff.1 hlast)]
  | some last =>
    have hlength := congrArg List.length (List.dropLast_append_getLast? last hlast)
    rw [samples_attach hlast (h last (List.mem_of_getLast? hlast))]
    simpa using hlength

/-- Only the last sample has the value that was attached. -/
theorem find?_attach (h : ∀ x ∈ l.samples, x.values.find? name = none) {i : Nat} {x : Sample}
    (hx : (l.perform (.attach name value)).2.samples[i]? = some x) :
    x.values.find? name =
      if i + 1 = (l.perform (.attach name value)).2.samples.length then some value else none := by
  cases hlast : l.samples.getLast? with
  | none =>
    rw [attach_of_empty (List.getLast?_eq_none_iff.1 hlast),
      List.getLast?_eq_none_iff.1 hlast] at hx
    cases hx
  | some last =>
    rw [samples_attach hlast (h last (List.mem_of_getLast? hlast))] at hx ⊢
    rw [List.length_append, List.length_singleton]
    by_cases hi : i < l.samples.dropLast.length
    · rw [List.getElem?_append_left hi] at hx
      rw [if_neg (by omega)]
      exact h x (List.dropLast_subset _ (List.mem_of_getElem? hx))
    · rw [List.getElem?_append_right (by omega)] at hx
      cases hlater : i - l.samples.dropLast.length with
      | succ j =>
        rw [hlater] at hx
        cases hx
      | zero =>
        rw [hlater] at hx
        cases hx
        rw [if_pos (by omega), Named.find?_insert, if_pos rfl]

end Ledger

namespace Run

open Session Step

variable {κ : Type} [Device κ] {r : Run κ} {s₀ s : Session κ} {l : Ledger} {name : String}

/-- The names of the samples are those of the collectors. -/
theorem find?_eq_none_of_names {x : Sample} (hx : x.values.names = (values r).names)
    (hname : name ∉ r.names) : x.values.find? name = none := by
  have hvalues : name ∉ (values r).names := by
    have hlabels : r.labels.map (·.1) = r.names := by
      rw [labels, List.map_map]
      rfl
    rw [names_values, hlabels, Named.mem_names_iff, Named.contains, Named.find?_ofNames,
      if_neg hname]
    exact fun h => by cases h
  rw [← hx, Named.mem_names_iff, Bool.not_eq_true] at hvalues
  exact Named.contains_eq_false_iff.1 hvalues

/-- Every sample of a run can be written, also with a user value of the given name: either samples
stay in memory, or those with this name and the names of the collectors fit into a frame. -/
def Takes (r : Run κ) (name : String) : Prop :=
  StoreMode.ofPlanned r.config.executions = .spooled →
    Ledger.Fits ⟨0, (values r).insert name 0⟩

/-- A sample without the user value fits as well. -/
theorem Takes.recordable (h : r.Takes name) : r.Recordable := by
  intro hspooled
  by_contra hnot
  exact Ledger.not_fits_insert hnot name 0 (h hspooled)

/-- **A user value goes to the latest sample**, if its name is new. -/
theorem called_attach {value : Int64} (h : Tracks s₀ l false s) (htakes : s₀.run.Takes name)
    (hname : name ∉ s₀.run.names)
    (hnames : ∀ x ∈ l.samples, x.values.names = (values s₀.run).names) (hsome : l.samples ≠ []) :
    Yields (attach name value) s (Called s₀ (l.perform (.attach name value)).2 false s []) := by
  obtain ⟨w, hstore, hfollows, hmode⟩ := h.store
  have hlast : l.samples.getLast? = some (l.samples.getLast hsome) := List.getLast?_eq_some_getLast hsome
  generalize l.samples.getLast hsome = last at hlast
  have hfree : ∀ x ∈ l.samples, x.values.find? name = none := fun x hx =>
    find?_eq_none_of_names (hnames x hx) hname
  have hnew := hfree last (List.mem_of_getLast? hlast)
  have hheld : last.values.contains name = false := Named.contains_eq_false_iff.2 hnew
  have hunused : name ∉ s.run.names := by
    have hlabels := congrArg (List.map Prod.fst) h.onward.labels
    simp only [labels, List.map_map] at hlabels
    rw [names, show s.run.collectors.map (·.name) = s₀.run.collectors.map (·.name) from hlabels]
    exact hname
  obtain ⟨hanswer, hattached, hmode'⟩ := Writer.follows_attach hfollows name value
  have hok : (l.perform (.attach name value)).1 = .ok () := by
    simp [Ledger.perform, hlast, hheld]
  rw [hok] at hanswer
  simp only [attach, yields_bind, yields_theRun, if_neg hunused, hstore]
  generalize w.attach name value = attached at hanswer hattached hmode' ⊢
  obtain ⟨result, w'⟩ := attached
  simp only at hanswer hattached hmode'
  subst hanswer
  simp only [yields_modifyRun]
  refine ⟨rfl, ?_, rfl, rfl, (List.append_nil _).symm⟩
  have hfits : StoreMode.ofPlanned s₀.run.config.executions = .spooled →
      ∀ x ∈ (l.perform (.attach name value)).2.samples, Ledger.Fits x := by
    intro hspooled x hx
    rw [Ledger.samples_attach hlast hnew] at hx
    rcases List.mem_append.1 hx with hx | hx
    · exact h.fits hspooled x (List.dropLast_subset _ hx)
    · rw [List.mem_singleton.1 hx]
      refine Ledger.fits_of_names_eq ?_ (htakes hspooled)
      exact Named.names_insert_congr (hnames last (List.mem_of_getLast? hlast)) name value 0
  exact
    { onward := h.onward.trans (onward_run rfl rfl rfl)
      horizon := h.horizon
      recordable := h.recordable
      order := h.order
      collecting := h.collecting
      steady := h.steady
      store := ⟨w', rfl, hattached, hmode'.trans hmode⟩
      fits := hfits
      executions := h.executions.trans (Ledger.length_attach value hfree).symm
      status := h.status }

/-! ## The size of a phase -/

omit [Device κ] in
/-- A size as a user value is the size, or the largest value. -/
theorem toInt_sizeValue (size : UInt64) :
    (sizeValue size).toInt = min (size.toNat : Int) Int64.maxValue.toInt :=
  toInt_valueOfWord size

/-- The size of a phase goes to its last sample, if there is one. -/
def noteSize (size : UInt64) : Step κ Unit := do
  if (← theRun).executions > 0 then attach sizeMetric (sizeValue size)

omit [Device κ] in
theorem noteSize_bind (size : UInt64) (rest : Step κ Unit) :
    (do noteSize size; rest : Step κ Unit) = (do
      if (← theRun).executions > 0 then attach sizeMetric (sizeValue size)
      rest) := by
  rw [noteSize, bind_assoc]
  refine congrArg (theRun >>= ·) (funext fun r => ?_)
  by_cases hsome : r.executions > 0
  · rw [if_pos hsome, if_pos hsome]
  · rw [if_neg hsome, if_neg hsome]
    rfl

/-- A phase performs its iterations, notes its size and seals its store. -/
theorem runPhase_eq (first : Bool) (size : UInt64) (token : Token) (s : Session κ) :
    runPhase first size token s =
      (settle (loop first token) >>= conclude (do
        noteSize size
        finalize none
        checkOwnCeilings)) s.prepared := by
  rw [noteSize_bind]
  exact conclude_loop first token _ s.prepared

theorem onwards_runPhase (first : Bool) (size : UInt64) (token : Token) :
    Onwards (runPhase first size token : Step κ Unit) := by
  have hcomposes := composes_onwards (κ := κ) token
  have hrest : Onwards (do finalize none; checkOwnCeilings : Step κ Unit) :=
    (onwards_finalize none).bind fun _ => onwards_checkOwnCeilings
  refine onwards_prepare.bind fun _ => (onwards_settle ?_).bind fun warm => ?_
  · cases first with
    | true => exact hcomposes.warmup
    | false => exact onwards_pure ()
  · cases warm with
    | error f => exact onwards_finalize (some f)
    | ok _ =>
      refine (onwards_mainLoop token).bind fun _ => onwards_theRun.bind fun r => ?_
      by_cases hsome : r.executions > 0
      · rw [if_pos hsome]
        exact (onwards_attach _ _).bind fun _ => hrest
      · rw [if_neg hsome]
        exact hrest

/-- Noting the size cannot fail, as no collector has its name. -/
theorem notes_noteSize (size : UInt64) (htakes : s.run.Takes sizeMetric)
    (hname : sizeMetric ∉ s.run.names) :
    Notes s (noteSize size) fun l => (l.perform (.attach sizeMetric (sizeValue size))).2 := by
  intro l u htracks hnames
  rw [noteSize, yields_bind, yields_theRun]
  dsimp only
  rw [htracks.executions]
  by_cases hempty : l.samples = []
  · rw [if_neg (by simp [hempty]), Ledger.attach_of_empty hempty]
    exact ⟨rfl, htracks, rfl, rfl, (List.append_nil _).symm⟩
  · rw [if_pos (List.length_pos_iff.2 hempty)]
    exact called_attach htracks htakes hname hnames hempty

end Run

/-! ## What a phase leaves -/

/-- A phase that has ended, with the sessions before and after it, its failure and its sealed
store. -/
structure Phase (κ : Type) where
  size : UInt64
  before : Session κ
  after : Session κ
  failure : Option Failure
  reader : Reader

namespace Phase

variable {κ : Type}

def result (p : Phase κ) : RunResult where
  status := p.after.run.status
  executions := p.after.run.executions
  earlyStopped := p.after.run.earlyStopped
  reader := p.reader

def ending (p : Phase κ) : EStateM.Result Halt (Session κ) Unit :=
  match p.failure with
  | none => .ok () p.after
  | some f => .error (.failure f) p.after

variable [Device κ]

/-- All iterations of a phase have succeeded.  The phase is complete, and its ceilings decide on its
failure; its size stands on the last sample and on no other. -/
structure Completed (p : Phase κ) (first : Bool) (token : Token) (samples : List Sample) :
    Prop where
  loop : ∃ u, Run.loop first token p.before.prepared = .ok () u
  status : p.result.status = .complete
  enough : samples.length = p.size.toNat ∨ p.result.earlyStopped = true
  judged : p.before.run.config.Judges samples (answerOf p.failure)
  beats : p.after.world.beats = p.before.world.beats ++ p.before.loopBeats first samples.length
  sized : ∀ i x, samples[i]? = some x → (x.values.find? sizeMetric).map Int64.toInt =
    if i + 1 = samples.length then some (min (p.size.toNat : Int) Int64.maxValue.toInt) else none

/-- An iteration of a phase has failed.  Its failure is that of the phase, the calls end there, and
no sample has the size. -/
structure Broken (p : Phase κ) (first : Bool) (token : Token) (samples : List Sample) : Prop where
  loop : ∃ f u, Run.loop first token p.before.prepared = .error (.failure f) u ∧ p.failure = some f
  status : p.result.status = .failed
  beats : ∃ heard closing, heard <+: p.before.loopBeats first p.size.toNat ∧
    (closing = [] ∨ closing = p.before.run.stops) ∧
    p.after.world.beats = p.before.world.beats ++ heard ++ closing
  unsized : ∀ x ∈ samples, x.values.find? sizeMetric = none

/-- The sealed store of a phase shows its samples, and there are at most as many as planned. -/
structure Holds (p : Phase κ) (first : Bool) (token : Token) (samples : List Sample) : Prop where
  store : p.after.run.store = .sealed p.reader
  shows : p.reader.Shows samples
  summaries : ∀ metric, p.reader.summary? metric =
    Summary.ofSeriesIn (.ofPlanned p.size.toNat) (series samples metric)
  executions : p.result.executions = samples.length
  planned : samples.length ≤ p.size.toNat
  ended : p.Completed first token samples ∨ p.Broken first token samples

end Phase

namespace Run

open Session Step

variable {κ : Type} [Device κ] {s t u : Session κ} {l : Ledger} {first : Bool} {token : Token}
  {size : UInt64} {r : Except Halt Unit}

omit [Device κ] in
/-- Where the ceilings decide, a run answers or fails. -/
theorem exists_answerOf_of_judges {config : Configuration} {samples : List Sample}
    (h : config.Judges samples r) : ∃ failure, r = answerOf failure := by
  cases h with
  | accepted => exact ⟨none, rfl⟩
  | refused metric ceiling mean => exact ⟨some (.assertion metric mean ceiling), rfl⟩

/-- A phase whose iterations have all succeeded. -/
theorem completed_of_ok (hfresh : s.Fresh) (hsize : s.run.config.executions = size.toNat)
    {n : Nat} (hn : n = s.run.config.allowed l.samples) (hlength : l.samples.length = n)
    (hfree : ∀ x ∈ l.samples, x.values.find? sizeMetric = none)
    (hends : EndsAs (loop first token) (do
      performEach token (s.loopCues first n)
      markEarly (s.run.config.stopsFrom l.samples 0 s.run.config.executions)) s.prepared)
    (hcues : performEach token (s.loopCues first n) s.prepared = .ok () u)
    (hleft : LeftAll token s {} false false s.prepared (s.loopCues first n) (.ok ()) u)
    (hsealed : Sealed s (l.perform (.attach sizeMetric (sizeValue size))).2 false
      (u.marked (s.run.config.stopsFrom l.samples 0 s.run.config.executions)) none (.ok ()) t)
    (hjudges : s.run.config.Judges
      (l.perform (.attach sizeMetric (sizeValue size))).2.samples r) :
    ∃ p : Phase κ, p.size = size ∧ p.before = s ∧ p.after = t ∧ r = answerOf p.failure ∧
      ∃ samples, p.Holds first token samples := by
  obtain ⟨reader, hstore, hshows, hsummary⟩ := hsealed.reader
  obtain ⟨failure, rfl⟩ := exists_answerOf_of_judges hjudges
  have hattached := Ledger.length_attach (sizeValue size) hfree
  have hearly : t.run.earlyStopped =
      s.run.config.stopsFrom l.samples 0 s.run.config.executions := by
    have hopen : s.run.earlyStopped = false := congrArg Run.earlyStopped hfresh.run_eq
    have hkept : u.run.earlyStopped = s.run.earlyStopped := hleft.early
    rw [hsealed.early, marked, hkept, hopen, Bool.false_or]
  have henough : l.samples.length = size.toNat ∨ t.run.earlyStopped = true := by
    obtain ⟨hleast, hnone⟩ := s.run.config.isLeast_allowed (hlength.trans hn)
    by_cases hadmissible : ∃ i, s.run.config.Admissible l.samples i
    · exact .inr (hearly.trans (hleast hadmissible).2)
    · exact .inl ((hnone (not_exists.1 hadmissible)).1.trans hsize)
  have hloop : loop first token s.prepared =
      .ok () (u.marked (s.run.config.stopsFrom l.samples 0 s.run.config.executions)) := by
    rwa [EndsAs, bind_of_ok hcues] at hends
  rw [hsize] at hsummary
  refine ⟨⟨size, s, t, failure, reader⟩, rfl, rfl, rfl, rfl,
    (l.perform (.attach sizeMetric (sizeValue size))).2.samples, ?_⟩
  exact
    { store := hstore
      shows := hshows
      summaries := hsummary
      executions := hsealed.executions
      planned := by
        rw [hattached, hlength, hn, ← hsize]
        exact s.run.config.allowed_le l.samples
      ended := .inl
        { loop := ⟨_, hloop⟩
          status := hsealed.status
          enough := by
            rw [hattached]
            exact henough
          judged := hjudges
          beats := by
            rw [hattached, hlength, ← flatMap_beats_loopCues]
            exact hsealed.beats.trans ((List.append_nil _).trans (hleft.ok () rfl).2)
          sized := fun i x hx => by
            rw [Ledger.find?_attach hfree hx, ← toInt_sizeValue]
            by_cases hi : i + 1 = (l.perform (.attach sizeMetric (sizeValue size))).2.samples.length
            · rw [if_pos hi, if_pos hi]
              rfl
            · rw [if_neg hi, if_neg hi]
              rfl } }

/-- A phase of which an iteration has failed. -/
theorem broken_of_error (hsize : s.run.config.executions = size.toNat)
    {n : Nat} (hn : n = s.run.config.allowed l.samples) {f : Failure} {now stopped : Bool}
    (hl : l.samples.length ≤ n) (hfree : ∀ x ∈ l.samples, x.values.find? sizeMetric = none)
    (hends : EndsAs (loop first token) (do
      performEach token (s.loopCues first n)
      markEarly stopped) s.prepared)
    (hcues : performEach token (s.loopCues first n) s.prepared = .error (.failure f) u)
    (hleft : LeftAll token s {} false false s.prepared (s.loopCues first n)
      (.error (.failure f)) u)
    (hsealed : Sealed s l now u (some f) r t) :
    ∃ p : Phase κ, p.size = size ∧ p.before = s ∧ p.after = t ∧ r = answerOf p.failure ∧
      ∃ samples, p.Holds first token samples := by
  obtain ⟨reader, hstore, hshows, hsummary⟩ := hsealed.reader
  obtain ⟨g, done, cue, rest, -, hsplit, -, -, hbeats⟩ := hleft.error _ rfl
  have hplanned : n ≤ size.toNat := by
    rw [hn, ← hsize]
    exact s.run.config.allowed_le l.samples
  have hheard : (done ++ [cue]).flatMap (beats s) <+: s.loopBeats first size.toNat := by
    have hcalls : (s.loopCues first n).flatMap (beats s) =
        (done ++ [cue]).flatMap (beats s) ++ rest.flatMap (beats s) := by
      rw [hsplit, ← List.flatMap_append, List.append_assoc, List.singleton_append]
    refine List.IsPrefix.trans ?_ (s.loopBeats_prefix first hplanned)
    rw [← flatMap_beats_loopCues, hcalls]
    exact List.prefix_append _ _
  rw [EndsAs, bind_of_error hcues] at hends
  obtain ⟨v, hloop, -⟩ := hends
  rw [hsize] at hsummary
  refine ⟨⟨size, s, t, some f, reader⟩, rfl, rfl, rfl, hsealed.answer, l.samples, ?_⟩
  exact
    { store := hstore
      shows := hshows
      summaries := hsummary
      executions := hsealed.executions
      planned := hl.trans hplanned
      ended := .inr
        { loop := ⟨f, v, hloop, rfl⟩
          status := hsealed.status
          beats := by
            refine ⟨_, if now then s.run.stops else [], hheard, ?_, ?_⟩
            · cases now with
              | true => exact .inr rfl
              | false => exact .inl rfl
            · exact hsealed.beats.trans (congrArg (· ++ _) hbeats)
          unsized := hfree } }

/-- **A phase always ends**, and its store holds what it has measured. -/
theorem exists_phase (hfresh : s.Fresh) (hsteady : ∀ c ∈ s.run.collectors, Device.Steady c.device)
    (htakes : s.run.Takes sizeMetric) (hname : sizeMetric ∉ s.run.names)
    (hhorizon : s.world.horizon = none) (hsize : s.run.config.executions = size.toNat)
    (first : Bool) (token : Token) :
    ∃ p : Phase κ, p.size = size ∧ p.before = s ∧ runPhase first size token s = p.ending ∧
      s.Onward p.after ∧ ∃ samples, p.Holds first token samples := by
  have honward := onwards_runPhase first size token s
  have htracks : s.Tracks {} false s.prepared :=
    hfresh.tracks hsteady htakes.recordable hhorizon
  have hyields : Yields (runPhase first size token) s fun r t =>
      ∃ p : Phase κ, p.size = size ∧ p.before = s ∧ p.after = t ∧ r = answerOf p.failure ∧
        ∃ samples, p.Holds first token samples := by
    have hconcluded := yields_concluded (notes_noteSize size htakes hname) first token
      htracks
    refine Yields.congr (hconcluded.mono ?_) (runPhase_eq first size token s)
    rintro r t ⟨n, l, hl, hn, hends, hcases⟩
    have hfree : ∀ x ∈ l.samples, x.values.find? sizeMetric = none := by
      intro x hx
      rw [hl] at hx
      refine find?_eq_none_of_names ?_ hname
      exact names_ledger htracks (s.bracketAll_loopCues first n) (fun _ h => by cases h) x hx
    rcases hcases with ⟨u, hcues, hleft, hsealed, hjudges⟩ | ⟨f, now, u, hcues, hleft, hsealed, -⟩
    · have hlength := length_ledger_of_ok (l := {}) hcues
      rw [count_write_loopCues, ← hl] at hlength
      exact completed_of_ok hfresh hsize hn (hlength.trans (Nat.zero_add n)) hfree hends hcues
        hleft hsealed hjudges
    · have hlength := length_ledger_le token {} (s.loopCues first n) s.prepared
      rw [count_write_loopCues, ← hl] at hlength
      exact broken_of_error hsize hn (hlength.trans (Nat.zero_add n).le) hfree hends hcues hleft
        hsealed
  cases hphase : runPhase first size token s with
  | ok a t =>
    obtain ⟨p, hp, hbefore, rfl, hanswer, hholds⟩ := hyields.of_ok hphase
    refine ⟨p, hp, hbefore, ?_, honward.of_ok hphase, hholds⟩
    cases hfailure : p.failure with
    | none => rw [Phase.ending, hfailure]
    | some f =>
      rw [hfailure] at hanswer
      cases hanswer
  | error e t =>
    obtain ⟨p, hp, hbefore, rfl, hanswer, hholds⟩ := hyields.of_error hphase
    refine ⟨p, hp, hbefore, ?_, honward.of_error hphase, hholds⟩
    cases hfailure : p.failure with
    | none =>
      rw [hfailure] at hanswer
      cases hanswer
    | some f =>
      rw [hfailure] at hanswer
      cases hanswer
      rw [Phase.ending, hfailure]

end Run

end Gauge
