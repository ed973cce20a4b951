import Gauge.Proofs.Run.Construction
import Gauge.Proofs.Run.EarlyStop
import Gauge.Proofs.Run.Plays

/-!
# The schedule of a run

A run that nobody cancels makes the calls of one schedule, up to the first call of a hook that
fails.

## Main definitions

* `Session.schedule` — rounds that are not measured, and then measured ones.
* `Session.Fresh` — a session whose run is new.
* `Session.closing` — the calls that follow a failing one.

## Main statements

* `Run.plays_warmup`, `Run.plays_iterate` — the parts of the schedule.
* `Run.uncancelled_measureFrom` — the measured iterations.
* `Run.execute_follows_schedule` — a whole run.
-/

namespace Gauge

/-! ## Rounds -/

namespace Session

variable {κ : Type}

def bodies (s : Session κ) : List Beat := List.replicate s.run.config.repetitions (.hook .body)

/-- An iteration that is not measured. -/
def warmupRound (s : Session κ) : List Beat :=
  s.work.beatOf .before ++ (s.bodies ++ s.work.beatOf .after)

/-- A measured iteration: its bracket holds the calls of the body. -/
def measuredRound (s : Session κ) : List Beat :=
  s.work.beatOf .before ++ (s.run.starts ++ (s.bodies ++ (s.run.stops ++ s.work.beatOf .after)))

def warmupBeats (s : Session κ) : List Beat :=
  (List.replicate s.run.config.warmup s.warmupRound).flatten

def measuredBeats (s : Session κ) (n : Nat) : List Beat :=
  (List.replicate n s.measuredRound).flatten

/-- The schedule of a run with a number of measured iterations. -/
def schedule (s : Session κ) (n : Nat) : List Beat := s.warmupBeats ++ s.measuredBeats n

theorem measuredBeats_succ (s : Session κ) (n : Nat) :
    s.measuredBeats (n + 1) = s.measuredRound ++ s.measuredBeats n := by
  rw [measuredBeats, List.replicate_succ, List.flatten_cons]
  rfl

end Session

/-! ## Parts of the schedule -/

namespace Run

open Session Step

variable {κ : Type} [Device κ] {s₀ : Session κ} {token : Token} {closing : Stage → List Beat}
  {l : Ledger} {collecting : Bool} {F : Session κ → Prop}

/-- A checkpoint is passed without a call. -/
theorem plays_checkpoint : Plays token (inWorld (World.checkpoint token)) [] closing
    (Tracks s₀ l collecting) (Tracks s₀ l collecting) F := by
  refine ⟨onwards_checkpoint token, ?_⟩
  intro s hs
  rw [Uncancelled, yields_inWorld]
  refine ((World.answers_checkpoint token).uncancelled s.world).mono ?_
  intro r w hw hlive
  rw [hw.2 hs.world_horizon hlive]
  refine played_of_ok rfl rfl ?_ (hs.of_run_eq (onward_world hw.1.toLater) rfl)
  rw [hw.1.beats]
  exact (List.append_nil _).symm

/-- A hook is called, if there is one. -/
theorem plays_callHook (stage : Stage) : Plays token (callHook token stage)
    (s₀.work.beatOf stage) (fun _ => []) (Tracks s₀ l collecting) (Tracks s₀ l collecting)
    (Tracks s₀ l collecting) := by
  refine ⟨onwards_callHook token stage, ?_⟩
  intro s hs
  have hbeat : s₀.work.beatOf stage = s.work.beatOf stage := by
    rw [Workload.beatOf, Workload.beatOf, hs.onward.hooks]
  have hplay := s.work.play_beatOf stage
  rw [hbeat]
  refine (yields_callHook token stage s).mono ?_
  rintro r t (⟨hnext, rfl, rfl⟩ | ⟨action, h⟩) hlive
  · rw [hnext] at hplay
    exact played_of_ok (by rw [hplay]) (by rw [hplay]) (by simp [hplay]) hs
  · rw [h.next] at hplay
    have hnow : Tracks s₀ l collecting t := hs.of_run_eq h.onward h.run
    rcases h.answer hs.world_horizon with rfl | ⟨-, hcancelled⟩
    · exact played_of_call hplay h.beats hnow hnow
    · simp [hlive] at hcancelled

/-- The calls of the body, with a checkpoint between two of them. -/
theorem plays_repeatBody (first : Bool) (n : Nat) : Plays token (repeatBody token first n)
    (List.replicate n (.hook .body)) (fun _ => []) (Tracks s₀ l collecting)
    (Tracks s₀ l collecting) (Tracks s₀ l collecting) := by
  induction n generalizing first with
  | zero => exact plays_pure
  | succ n ih =>
    have hcall : Plays token (do callHook token .body; repeatBody token false n)
        (List.replicate (n + 1) (.hook .body)) (fun _ => []) (Tracks s₀ l collecting)
        (Tracks s₀ l collecting) (Tracks s₀ l collecting) := (plays_callHook .body).bind (ih false)
    cases first with
    | true => exact hcall
    | false => exact plays_checkpoint.bind hcall

theorem plays_runBody : Plays token (runBody token) s₀.bodies (fun _ => [])
    (Tracks s₀ l collecting) (Tracks s₀ l collecting) (Tracks s₀ l collecting) := by
  refine plays_theRun (fun _ => onwards_repeatBody token true _) fun s hs => ?_
  rw [bodies, ← hs.onward.config]
  exact plays_repeatBody true _

/-- Iterations that are not measured. -/
theorem plays_warmupFor (n : Nat) : Plays token (warmupFor token n)
    (List.replicate n s₀.warmupRound).flatten (fun _ => []) (Tracks s₀ l collecting)
    (Tracks s₀ l collecting) (Tracks s₀ l collecting) := by
  induction n with
  | zero => exact plays_pure
  | succ n ih =>
    have hround := plays_checkpoint.bind ((plays_callHook .before).bind
      (plays_runBody.bind ((plays_callHook .after).bind ih)))
    rw [warmupFor, List.replicate_succ, List.flatten_cons]
    simpa only [warmupRound, List.nil_append, List.append_assoc] using hround

theorem plays_warmup : Plays token (warmup token) s₀.warmupBeats (fun _ => [])
    (Tracks s₀ l collecting) (Tracks s₀ l collecting) (Tracks s₀ l collecting) := by
  refine plays_theRun (fun _ => onwards_warmupFor token _) fun s hs => ?_
  rw [warmupBeats, ← hs.onward.config]
  exact plays_warmupFor _

/-- The calls that close the bracket after a failing call of a stage. -/
def closingOf (r : Run κ) (stage : Stage) : List Beat := if stage = .body then r.stops else []

theorem plays_start : Plays token (start s₀.run.mode) s₀.run.starts closing (Tracks s₀ l false)
    (fun t => ∃ noted, Tracks s₀ { l with noted := noted } true t) F := by
  refine plays_collectors (onwards_start _) fun s hs => (called_start hs).mono fun r t ht => ?_
  exact ⟨ht.answer, ht.work, ht.beats, some s.millis, ht.tracks⟩

theorem plays_stop : Plays token stop s₀.run.stops closing (Tracks s₀ l true)
    (fun t => ∃ sample, Tracks s₀ { samples := l.samples ++ [sample] } false t) F := by
  refine plays_collectors onwards_stop fun s hs => (called_stop hs).mono fun r t ht => ?_
  obtain ⟨sample, hcalled⟩ := ht
  exact ⟨hcalled.answer, hcalled.work, hcalled.beats, sample, hcalled.tracks⟩

/-- A hook around the bracket: after its failure nothing is called. -/
theorem plays_outside {stage : Stage} (hstage : stage ≠ .body) {Q : Session κ → Prop}
    (hQ : ∀ t, Tracks s₀ l collecting t → Q t) (hF : ∀ t, Tracks s₀ l collecting t → F t) :
    Plays token (callHook token stage) (s₀.work.beatOf stage) s₀.run.closingOf
      (Tracks s₀ l collecting) Q F := by
  refine (plays_callHook stage).mono (fun _ hs => hs) hQ hF fun other hother => ?_
  rw [closingOf, if_neg (Workload.mem_beatOf hother ▸ hstage)]

/-- **A measured iteration.**  It adds a sample; where a call of the body fails, the collectors are
stopped, and no sample is added. -/
theorem plays_iterate : Plays token (iterate token) s₀.measuredRound s₀.run.closingOf
    (Tracks s₀ l false) (fun t => ∃ sample, Tracks s₀ { samples := l.samples ++ [sample] } false t)
    (fun t => ∃ l', l.samples <+: l'.samples ∧ Tracks s₀ l' false t) := by
  have : Nonempty Sample := ⟨⟨0, ∅⟩⟩
  have hbefore : Plays token (callHook token .before) (s₀.work.beatOf .before) s₀.run.closingOf
      (Tracks s₀ l false) (Tracks s₀ l false)
      (fun t => ∃ l', l.samples <+: l'.samples ∧ Tracks s₀ l' false t) :=
    plays_outside (by decide) (fun _ ht => ht) fun t ht => ⟨l, List.prefix_rfl, ht⟩
  have hafter : Plays token (callHook token .after) (s₀.work.beatOf .after) s₀.run.closingOf
      (fun t => ∃ sample, Tracks s₀ { samples := l.samples ++ [sample] } false t)
      (fun t => ∃ sample, Tracks s₀ { samples := l.samples ++ [sample] } false t)
      (fun t => ∃ l', l.samples <+: l'.samples ∧ Tracks s₀ l' false t) :=
    plays_exists fun sample => plays_outside (by decide) (fun t ht => ⟨sample, ht⟩)
      fun t ht => ⟨_, List.prefix_append _ _, ht⟩
  refine hbefore.bind (plays_theRun (fun r => (onwards_start r.mode).bind fun _ =>
    (onwards_settle (onwards_runBody token)).bind (onwards_settledBody token)) fun s hs => ?_)
  rw [hs.onward.mode]
  refine plays_start.bind (plays_exists fun noted => ?_)
  refine plays_runBody.bind_settle (plays_stop.bind hafter)
    (onwards_settledBody token) ?_
  intro failure stage t ht hmem
  have hstage : stage = .body := by simpa [bodies] using List.eq_of_mem_replicate hmem
  rw [yields_bind]
  refine (called_abort ht).mono ?_
  intro r u hu
  rw [hu.answer]
  refine ⟨rfl, ?_, { l with noted := noted }, List.prefix_rfl, hu.tracks⟩
  rw [hu.beats, closingOf, if_pos hstage]

end Run

/-! ## The measured part -/

namespace Run

open Session Step

variable {κ : Type} [Device κ] {s₀ s : Session κ} {token : Token} {l : Ledger}
  {collecting : Bool}

omit [Device κ] in
theorem measuredBeats_allowedFrom (s₀ : Session κ) (samples : List Sample) (k n : Nat) :
    s₀.measuredBeats (s₀.run.config.allowedFrom samples k (n + 1)) =
      s₀.measuredRound ++ s₀.measuredBeats
        (if s₀.run.config.stopsAfter (samples.take (k + 1)) then 0
        else s₀.run.config.allowedFrom samples (k + 1) n) := by
  rw [← measuredBeats_succ, Configuration.allowedFrom]
  split <;> rfl

/-- A checkpoint and a measured iteration. -/
theorem plays_checkedIterate : Plays token (do inWorld (World.checkpoint token); iterate token)
    s₀.measuredRound s₀.run.closingOf (Tracks s₀ l false)
    (fun t => ∃ sample, Tracks s₀ { samples := l.samples ++ [sample] } false t)
    (fun t => ∃ l', l.samples <+: l'.samples ∧ Tracks s₀ l' false t) :=
  plays_checkpoint.bind plays_iterate

/-- **The measured iterations**: as many as the rule for stopping early allows, going by the samples
that are there in the end. -/
theorem uncancelled_measureFrom {k : Nat} (hk : l.samples.length = k) (n : Nat)
    (h : Tracks s₀ l false s) :
    Uncancelled token (measureFrom token (k + 1) n) s fun r t =>
      ∃ l', l.samples <+: l'.samples ∧ Tracks s₀ l' false t ∧
        Played s (s₀.measuredBeats (s₀.run.config.allowedFrom l'.samples k n)) s₀.run.closingOf
          (fun _ => True) (fun _ => True) r t := by
  induction n generalizing k l s with
  | zero =>
    exact fun _ => ⟨l, List.prefix_rfl, h, played_of_ok rfl rfl (List.append_nil _).symm trivial⟩
  | succ n ih =>
    rw [measureFrom, ← bind_assoc]
    refine (plays_checkedIterate.played s h).bind
      (fun _ => onwards_unlessConverged (onwards_measureFrom token _ n) _) ?_ ?_
    · intro _ t ht
      obtain ⟨hL, hwork, hbeats, sample, htracks⟩ := ht.of_ok
      have hlength : (l.samples ++ [sample]).length = k + 1 := by simp [hk]
      have hconverged := converged_eq htracks
      -- the samples so far are the first ones in the end, so the rule says the same of both
      have htake {l' : Ledger} (hbegin : l.samples ++ [sample] <+: l'.samples) :
          l'.samples.take (k + 1) = l.samples ++ [sample] := by
        rw [← hlength]
        exact (List.prefix_iff_eq_take.1 hbegin).symm
      simp only [hlength] at hconverged
      refine .of_theRun ?_
      rw [hconverged]
      cases hstops : s₀.run.config.stopsAfter (l.samples ++ [sample]) with
      | true =>
        intro _
        have hstopped : Tracks s₀ { samples := l.samples ++ [sample] } false
            { t with run := { t.run with earlyStopped := true } } :=
          { htracks with onward := htracks.onward.trans (onward_run rfl rfl rfl) }
        refine ⟨_, List.prefix_append _ _, hstopped, ?_⟩
        rw [measuredBeats_allowedFrom, htake List.prefix_rfl, if_pos hstops, measuredBeats,
          List.replicate_zero, List.flatten_nil, List.append_nil]
        exact played_of_ok hL hwork hbeats trivial
      | false =>
        refine (ih hlength htracks).mono ?_
        intro r u hu
        obtain ⟨l', hbegin, htracks', hplayed⟩ := hu
        refine ⟨l', (List.prefix_append _ _).trans hbegin, htracks', ?_⟩
        rw [measuredBeats_allowedFrom, htake hbegin, hstops]
        exact ht.append_ok hplayed
    · intro e t ht
      obtain ⟨-, -, -, -, -, l', hbegin, htracks⟩ := ht.of_error
      have hfailed : Played s s₀.measuredRound s₀.run.closingOf (fun _ => True) (fun _ => True)
          (.error e) t := ht.mono (fun _ => trivial) (fun _ => trivial) fun _ _ => rfl
      refine ⟨l', hbegin, htracks, ?_⟩
      rw [measuredBeats_allowedFrom]
      exact hfailed.append_error _ _

/-! ## Whole runs -/

/-- Sealing cannot fail, and nothing is called for it. -/
theorem yields_finalize (h : Tracks s₀ l false s) (failure : Option Failure) :
    Yields (finalize failure) s fun r t =>
      r = answerOf failure ∧ t.world.beats = s.world.beats ∧ t.run.Shows l.samples := by
  refine (yields_finalize_any h failure).mono ?_
  intro r t ht
  obtain ⟨reader, hstore, hshows, -⟩ := ht.reader
  exact ⟨ht.answer, ht.beats.trans (List.append_nil _), reader, hstore, hshows⟩

omit [Device κ] in
/-- A look at the ceilings changes nothing. -/
theorem yields_checkOwnCeilings (s : Session κ) :
    Yields checkOwnCeilings s fun _ t => t = s := by
  simp only [checkOwnCeilings, yields_bind, yields_theRun]
  by_cases hceilings : s.run.config.ceilings.isEmpty
  · simp [hceilings]
  · simp only [hceilings, Bool.not_false, if_true, checkCeilings, yields_bind, yields_theRun]
    cases s.run.reader with
    | error f => rfl
    | ok reader =>
      cases hchecked : reader.checkCeilings s.run.config.ceilings with
      | ok _ => simp [hchecked, ofResult]
      | error f => simp [hchecked, ofResult]

/-- The measured iterations of a run without samples; where one of them fails, the store is
sealed. -/
theorem uncancelled_mainLoop (h : Tracks s₀ {} false s) :
    Uncancelled token (mainLoop token) s fun r t => ∃ l,
      t.world.beats = s.world.beats ++
        (s.work.play (s₀.measuredBeats (s₀.run.config.allowed l.samples))).heard s₀.run.closingOf ∧
      ((∃ a, r = .ok a) → Tracks s₀ l false t) ∧ ((∃ e, r = .error e) → t.run.Shows l.samples) := by
  have hmeasure : Uncancelled token (measure token) s fun r t =>
      ∃ l, Tracks s₀ l false t ∧ Played s (s₀.measuredBeats (s₀.run.config.allowed l.samples))
        s₀.run.closingOf (fun _ => True) (fun _ => True) r t := by
    refine .of_theRun ((uncancelled_measureFrom (k := 0) rfl _ h).mono fun r t ht => ?_)
    obtain ⟨l, -, htracks, hplayed⟩ := ht
    rw [h.onward.config, Configuration.allowedFrom_zero] at hplayed
    exact ⟨l, htracks, hplayed⟩
  refine hmeasure.bind_settle (fun r => ?_) (fun a t ht => ?_) fun e t ht => ?_
  · cases r with
    | ok _ => exact onwards_pure ()
    | error f => exact onwards_finalize (some f)
  · obtain ⟨l, htracks, hplayed⟩ := ht
    exact fun _ => ⟨l, hplayed.beats, fun _ => htracks, fun ⟨_, he⟩ => by cases he⟩
  · obtain ⟨l, htracks, hplayed⟩ := ht
    obtain ⟨stage, f, -, rfl, -⟩ := hplayed.of_error
    refine ⟨f, rfl, (yields_finalize htracks (some f)).mono ?_⟩
    intro r u hu _
    obtain ⟨rfl, hbeats, hshows⟩ := hu
    exact ⟨l, hbeats.trans hplayed.beats, fun ⟨_, hr⟩ => (by cases hr), fun _ => hshows⟩

/-- What follows the iterations that are not measured. -/
theorem uncancelled_measured (h : Tracks s₀ {} false s) :
    Uncancelled token (do mainLoop token; finalize none; checkOwnCeilings) s fun _ t =>
      ∃ samples, t.run.Shows samples ∧
        t.world.beats = s.world.beats ++
          (s.work.play (s₀.measuredBeats (s₀.run.config.allowed samples))).heard
            s₀.run.closingOf := by
  refine (uncancelled_mainLoop h).bind (fun _ => ?_) (fun a t ht => ?_) fun e t ht => ?_
  · exact (onwards_finalize none).bind fun _ => onwards_checkOwnCeilings
  · obtain ⟨l, hbeats, htracks, -⟩ := ht
    rw [Uncancelled, yields_bind]
    refine (yields_finalize (htracks ⟨a, rfl⟩) none).mono ?_
    intro r u hu
    obtain ⟨rfl, hbeats', hshows⟩ := hu
    refine (yields_checkOwnCeilings u).mono ?_
    intro r v hv _
    rw [hv]
    exact ⟨l.samples, hshows, hbeats'.trans hbeats⟩
  · obtain ⟨l, hbeats, -, hshows⟩ := ht
    exact ⟨l.samples, hshows ⟨e, rfl⟩, hbeats⟩

end Run

namespace Session

variable {κ : Type} {s : Session κ}

/-- A session whose run is new, in either mode. -/
def Fresh (s : Session κ) : Prop :=
  ∃ config collectors run, Run.create config collectors = .ok run ∧
    s.run = { run with mode := s.run.mode }

theorem Fresh.run_eq (h : s.Fresh) :
    s.run =
      { config := s.run.config
        collectors := s.run.collectors
        mode := s.run.mode
        store := .writing (.ofPlanned s.run.config.executions) } := by
  obtain ⟨config, collectors, run, hcreate, hrun⟩ := h
  rw [hrun, (Run.create_eq_ok_iff.1 hcreate).2.2]

/-- A run of a registry is new, in either mode. -/
theorem fresh_of_registry {config : Configuration} {registry : Registry κ} {set : CollectorSet}
    {run : Run κ} (h : Run.ofRegistry config registry set = .ok run)
    (hrun : s.run = { run with mode := s.run.mode }) : s.Fresh ∧ s.run.config = config := by
  rw [Run.ofRegistry] at h
  cases hcollectors : registry.instantiate set with
  | error fault =>
    rw [hcollectors] at h
    cases h
  | ok collectors =>
    rw [hcollectors] at h
    refine ⟨⟨config, collectors, run, h, hrun⟩, ?_⟩
    rw [hrun, (Run.create_eq_ok_iff.1 h).2.2]

/-- The calls that follow a failing call: where it is one of the body in a measured iteration, all
collectors are stopped. -/
def closing (s : Session κ) (n : Nat) : List Beat :=
  if (s.work.play s.warmupBeats).failedIn = none ∧
      (s.work.play (s.schedule n)).failedIn = some .body then s.run.stops
  else []

/-- A schedule lists the hooks that there are. -/
theorem makes_schedule (s : Session κ) (n : Nat) : s.work.Makes (s.schedule n) := by
  intro stage hstage
  have hbeat {other : Stage} (h : Beat.hook stage ∈ s.work.beatOf other) :
      (s.work.hook? stage).isSome := by
    rw [Workload.mem_beatOf h]
    by_contra hnone
    rw [Workload.beatOf, if_neg hnone] at h
    cases h
  have hbody (h : Beat.hook stage ∈ s.bodies) : (s.work.hook? stage).isSome := by
    have heq : stage = .body := by simpa [bodies] using List.eq_of_mem_replicate h
    rw [heq]
    rfl
  rcases List.mem_append.1 hstage with h | h
  · obtain ⟨round, hround, hmem⟩ := List.mem_flatten.1 h
    rw [List.eq_of_mem_replicate hround, warmupRound, List.mem_append, List.mem_append] at hmem
    rcases hmem with h | h | h
    exacts [hbeat h, hbody h, hbeat h]
  · obtain ⟨round, hround, hmem⟩ := List.mem_flatten.1 h
    rw [List.eq_of_mem_replicate hround] at hmem
    simp only [measuredRound, List.mem_append] at hmem
    rcases hmem with h | h | h | h | h
    · exact hbeat h
    · simp [Run.starts] at h
    · exact hbody h
    · simp [Run.stops] at h
    · exact hbeat h

/-- What is heard of the measured part after the other one closes the bracket as it should. -/
theorem heard_schedule {n : Nat} (h : (s.work.play s.warmupBeats).failure = none) :
    (s.work.play s.warmupBeats).beats ++
        ((s.work.play s.warmupBeats).work.play (s.measuredBeats n)).heard s.run.closingOf =
      (s.work.play (s.schedule n)).beats ++ s.closing n := by
  have hplay := s.work.play_append s.warmupBeats (s.measuredBeats n)
  rw [h] at hplay
  have hfailed : (s.work.play (s.schedule n)).failedIn =
      ((s.work.play s.warmupBeats).work.play (s.measuredBeats n)).failedIn := by
    rw [schedule, hplay]
    rfl
  have hnone : (s.work.play s.warmupBeats).failedIn = none := by
    rw [Performance.failedIn, h]
    rfl
  rw [closing, hfailed, hnone, schedule, hplay, Performance.heard, List.append_assoc]
  congr 2
  cases ((s.work.play s.warmupBeats).work.play (s.measuredBeats n)).failedIn with
  | none => rfl
  | some stage => cases stage <;> rfl

variable [Device κ]

/-- A new run is on its way once its order is settled. -/
theorem Fresh.tracks (h : s.Fresh) (hsteady : ∀ c ∈ s.run.collectors, Device.Steady c.device)
    (hrecordable : s.run.Recordable) (hhorizon : s.world.horizon = none) :
    s.Tracks {} false { s with run := { s.run with
      order := some (startOrder s.run.collectors) } } where
  onward := onward_run rfl rfl rfl
  horizon := hhorizon
  recordable := hrecordable
  order := ⟨_, rfl, s.run.filterMap_startOrder⟩
  collecting := congrArg Run.collecting h.run_eq
  steady := hsteady
  store := ⟨_, congrArg Run.store h.run_eq, Writer.follows_ofMode _, Writer.mode_ofMode _⟩
  fits := fun _ _ hx => by cases hx
  executions := congrArg Run.executions h.run_eq
  status := congrArg Run.status h.run_eq

end Session

namespace Run

open Session Step

variable {κ : Type} [Device κ] {s : Session κ}

/-- What is heard of a new run, unless it is cancelled. -/
theorem uncancelled_execute (hfresh : s.Fresh)
    (hsteady : ∀ c ∈ s.run.collectors, Device.Steady c.device) (hrecordable : s.run.Recordable)
    (hhorizon : s.world.horizon = none) (token : Token) :
    Uncancelled token (execute token) s fun _ t => ∃ samples, t.run.Shows samples ∧
      t.world.beats = s.world.beats ++
        (s.work.play (s.schedule (s.run.config.allowed samples))).beats ++
          s.closing (s.run.config.allowed samples) := by
  have htracks := hfresh.tracks hsteady hrecordable hhorizon
  rw [execute, Uncancelled, yields_bind, prepare, yields_modifyRun]
  refine (plays_warmup.played _ htracks).bind_settle ?_ ?_ ?_
  · intro r
    cases r with
    | error f => exact onwards_finalize (some f)
    | ok _ =>
      exact (onwards_mainLoop token).bind fun _ => (onwards_finalize none).bind fun _ =>
        onwards_checkOwnCeilings
  · intro _ t ht
    obtain ⟨hL, hwork, hbeats, htracks'⟩ := ht.of_ok
    refine (uncancelled_measured htracks').mono ?_
    intro r u hu
    obtain ⟨samples, hshows, hbeats'⟩ := hu
    refine ⟨samples, hshows, ?_⟩
    rw [hbeats', hbeats, hwork, List.append_assoc, List.append_assoc]
    exact congrArg _ (heard_schedule hL)
  · intro e t ht
    obtain ⟨stage, f, hL, rfl, hbeats, htracks'⟩ := ht.of_error
    refine ⟨f, rfl, (yields_finalize htracks' (some f)).mono ?_⟩
    intro r u hu _
    obtain ⟨-, hbeats', hshows⟩ := hu
    have hfailed : (s.work.play s.warmupBeats).failure = some (stage, f) := hL
    have hclosing : s.closing (s.run.config.allowed []) = [] := by
      simp [closing, Performance.failedIn, hfailed]
    refine ⟨[], hshows, ?_⟩
    rw [hbeats', hbeats, hclosing, schedule, Workload.play_append, hfailed]

/-- **A run that nobody cancels makes the calls of one schedule**: the iterations that are not
measured, without a call of a collector, and then as many measured ones as the rule for stopping
early allows.  The calls end with the first one of a hook that fails; only if that is a call of the
body in a measured iteration, all collectors are stopped after it.  A token that is not cancelled in
the end never was. -/
theorem execute_follows_schedule (hfresh : s.Fresh)
    (hsteady : ∀ c ∈ s.run.collectors, Device.Steady c.device) (hrecordable : s.run.Recordable)
    (hhorizon : s.world.horizon = none) (token : Token)
    (htoken : (after (execute token) s).world.tokens.isCancelled token = false) :
    ∃ samples, (after (execute token) s).run.Shows samples ∧
      (s.work.play (s.schedule (s.run.config.allowed samples))).beats <+:
        s.schedule (s.run.config.allowed samples) ∧
      (after (execute token) s).world.beats = s.world.beats ++
        (s.work.play (s.schedule (s.run.config.allowed samples))).beats ++
          s.closing (s.run.config.allowed samples) := by
  have hexecute := uncancelled_execute hfresh hsteady hrecordable hhorizon token
  obtain ⟨samples, hshows, hbeats⟩ := yields_after_iff.1 hexecute htoken
  have hbegin := (Workload.play_beats_isPrefix (s.makes_schedule (s.run.config.allowed samples))).1
  exact ⟨samples, hshows, hbegin, hbeats⟩

/-- A run with two collectors whose body fails at its fourth call. -/
def fourthCallFails : Session Instrument where
  world := { tokens := { cells := #[{}] } }
  work :=
    { before := some { script := fun _ => .succeed }
      body := { script := fun k => if k = 3 then .fail (.plain ["full"]) else .succeed }
      after := some { script := fun _ => .succeed } }
  run :=
    { config := { warmup := 1, executions := 2, repetitions := 2 }
      collectors := [⟨"cpu", 20, .summed .cpu {}⟩, ⟨"time", 10, .summed .elapsed {}⟩]
      store := .writing (.ofPlanned 2) }

/-- The failing call is the second one of the first measured iteration. -/
theorem execute_follows_schedule_fourthCallFails :
    fourthCallFails.Fresh ∧ (∀ c ∈ fourthCallFails.run.collectors, Device.Steady c.device) ∧
      fourthCallFails.run.Recordable ∧ fourthCallFails.world.horizon = none ∧
      (after (execute ⟨0, []⟩) fourthCallFails).world.tokens.isCancelled ⟨0, []⟩ = false ∧
      (after (execute ⟨0, []⟩) fourthCallFails).world.beats =
        [.hook .before, .hook .body, .hook .body, .hook .after,
          .hook .before, .collector .start "time", .collector .start "cpu",
          .hook .body, .hook .body,
          .collector .stop "cpu", .collector .stop "time"] := by
  have hfresh : fourthCallFails.Fresh :=
    ⟨fourthCallFails.run.config, fourthCallFails.run.collectors, fourthCallFails.run, rfl, rfl⟩
  have hsteady : ∀ c ∈ fourthCallFails.run.collectors, Device.Steady c.device := by
    intro c hc
    have hunbroken : c.device.Unbroken := by
      simp only [fourthCallFails, List.mem_cons, List.not_mem_nil, or_false] at hc
      rcases hc with rfl | rfl <;> trivial
    exact hunbroken.steady
  have hrecordable : fourthCallFails.run.Recordable := fun hspooled => by cases hspooled
  have htoken : (after (execute ⟨0, []⟩) fourthCallFails).world.tokens.isCancelled ⟨0, []⟩
      = false := by cbv
  obtain ⟨samples, -, -, hbeats⟩ :=
    execute_follows_schedule hfresh hsteady hrecordable rfl ⟨0, []⟩ htoken
  have hallowed : fourthCallFails.run.config.allowed samples = 2 :=
    Configuration.allowed_of_disabled rfl samples
  rw [hallowed] at hbeats
  refine ⟨hfresh, hsteady, hrecordable, rfl, htoken, hbeats.trans ?_⟩
  cbv

end Run

end Gauge
