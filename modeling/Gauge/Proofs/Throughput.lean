import Gauge.Proofs.Plan
import Gauge.Proofs.Run.Phase

/-!
# Throughput runs

A throughput run goes through the sizes of its plan.  It ends with the first phase that fails or
cannot be made, or with the last size, and hands over the sealed results of the phases that were
started, in the order of their sizes.

## Main definitions

* `Configuration.Supports` — no collector breaks off, and every record fits a frame.
* `Phase.Stands` — a phase of a plan, and what its store holds.
* `Phase.Passed` — a phase that is complete and has reached no ceiling.
* `Phase.OnlyMeasures` — a phase that does not warm up.
* `Phases` — the phases of a throughput run, as its sizes are gone through.
* `Linked` — each phase begins where the one before it has ended.
* `ThroughputRun.Keeps` — what a throughput run hands over.

## Main statements

* `runPhases_phases` — a throughput run goes through the phases of its sizes.
* `runThroughput_keeps_phases` — a throughput run keeps the phases it has started.
-/

namespace Gauge

open Run

/-! ## Phases of a plan -/

section

variable {κ : Type} [Device κ] {config : Configuration} {registry : Registry κ}
  {set : CollectorSet} {token : Token} {first : Bool} {w v : World (Event κ)} {work : Workload}

/-- The size is a user metric of a phase. -/
theorem Configuration.sizeMetric_mem_names (config : Configuration) (size : UInt64) :
    sizeMetric ∈ (config.forPhase size).userMetrics.names := by
  rw [Named.mem_names_iff, Named.contains, forPhase, Named.find?_insert, if_pos rfl]
  rfl

omit [Device κ] in
/-- A run of a phase has no collector with the name of the size. -/
theorem Run.not_mem_names_of_phase {run : Run κ} {size : UInt64}
    (h : Run.ofRegistry (config.forPhase size) registry set = .ok run) :
    sizeMetric ∉ run.names := by
  obtain ⟨hconsistent, rfl⟩ := ofRegistry_eq_ok_iff.1 h
  exact hconsistent.free sizeMetric (config.sizeMetric_mem_names size)

/-- The phases of some sizes can be measured: no collector breaks off, and every record fits a
frame, also with the size. -/
def Configuration.Supports (config : Configuration) (registry : Registry κ) (set : CollectorSet)
    (sizes : List UInt64) : Prop :=
  ∀ size ∈ sizes, ∀ run, Run.ofRegistry (config.forPhase size) registry set = .ok run →
    (∀ c ∈ run.collectors, Device.Steady c.device) ∧ run.Takes sizeMetric

namespace Phase

variable {p : Phase κ}

/-- A phase was made with its size as the number of planned iterations, it has run, and its sealed
store holds what it has measured. -/
structure Stands (config : Configuration) (registry : Registry κ) (set : CollectorSet)
    (first : Bool) (token : Token) (p : Phase κ) : Prop where
  made : ∃ run, Run.ofRegistry (config.forPhase p.size) registry set = .ok run ∧
    p.before.run = { run with mode := .accumulate }
  ran : runPhase first p.size token p.before = p.ending
  holds : ∃ samples, p.Holds first token samples

omit [Device κ] in
/-- A phase is complete: it has run all planned iterations or stopped early, and no mean has reached
its ceiling. -/
structure Passed (config : Configuration) (p : Phase κ) : Prop where
  failure : p.failure = none
  status : p.result.status = .complete
  enough : p.result.executions = p.size.toNat ∨ p.result.earlyStopped = true
  ceilings : ∀ e ∈ config.ceilings.entries, ∀ summary,
    p.result.reader.summary? e.1 = some summary → ¬ Float.ofInt e.2.toInt ≤ summary.mean

/-- A phase without a failure is complete. -/
theorem Stands.passed (h : p.Stands config registry set first token) (hfailure : p.failure = none) :
    p.Passed config := by
  obtain ⟨samples, hholds⟩ := h.holds
  obtain ⟨run, hrun, hbefore⟩ := h.made
  have hconfig : p.before.run.config = config.forPhase p.size :=
    (Session.fresh_of_registry hrun (by rw [hbefore])).2
  rcases hholds.ended with hcompleted | hbroken
  · constructor
    case failure => exact hfailure
    case status => exact hcompleted.status
    case enough =>
      rw [hholds.executions]
      exact hcompleted.enough
    case ceilings =>
      intro e he summary hsummary hreached
      have hjudged := hcompleted.judged
      rw [hfailure, hconfig] at hjudged
      cases hjudged with
      | accepted hnone =>
        apply hnone e he summary.mean
        exact ⟨summary, (hholds.summaries e.1).symm.trans hsummary, rfl, hreached⟩
  · obtain ⟨f, u, -, hf⟩ := hbroken.loop
    rw [hfailure] at hf
    cases hf

omit [Device κ] in
/-- All calls of a phase are those of its measured iterations; behind one that fails, its collectors
may be stopped. -/
def OnlyMeasures (p : Phase κ) : Prop :=
  ∃ heard closing, heard <+: p.before.measuredBeats p.size.toNat ∧
    (closing = [] ∨ closing = p.before.run.stops) ∧
    p.after.world.beats = p.before.world.beats ++ heard ++ closing

/-- A phase that is not the first one does not warm up. -/
theorem Stands.onlyMeasures (h : p.Stands config registry set false token) : p.OnlyMeasures := by
  obtain ⟨samples, hholds⟩ := h.holds
  rcases hholds.ended with hcompleted | hbroken
  · refine ⟨_, [], p.before.loopBeats_prefix false hholds.planned, .inl rfl, ?_⟩
    rw [List.append_nil]
    exact hcompleted.beats
  · exact hbroken.beats

end Phase

/-! ## Phase after phase -/

/-- The phases of a throughput run, as it goes through sizes from a world and a workload on.  It
ends where no size is left, where a phase cannot be made, or where one has failed. -/
inductive Phases (config : Configuration) (registry : Registry κ) (set : CollectorSet)
    (token : Token) : Bool → List UInt64 → World (Event κ) → Workload → List (Phase κ) →
      Option Failure → World (Event κ) → Prop
  | finished (first : Bool) (w : World (Event κ)) (work : Workload) :
      Phases config registry set token first [] w work [] none w
  | refused {size : UInt64} {cause : Misconfiguration} (first : Bool) (sizes : List UInt64)
      (w : World (Event κ)) (work : Workload)
      (h : Run.ofRegistry (config.forPhase size) registry set = .error cause) :
      Phases config registry set token first (size :: sizes) w work []
        (some (.misconfigured cause)) w
  | failed {first : Bool} {p : Phase κ} {f : Failure} (sizes : List UInt64)
      (h : p.Stands config registry set first token) (hfailure : p.failure = some f) :
      Phases config registry set token first (p.size :: sizes) p.before.world p.before.work [p]
        (some f) p.after.world
  | passed {first : Bool} {p : Phase κ} {sizes : List UInt64} {phases : List (Phase κ)}
      {failure : Option Failure} {v : World (Event κ)}
      (h : p.Stands config registry set first token) (hfailure : p.failure = none)
      (hrest : Phases config registry set token false sizes p.after.world p.after.work phases
        failure v) :
      Phases config registry set token first (p.size :: sizes) p.before.world p.before.work
        (p :: phases) failure v

omit [Device κ] in
/-- Each phase begins where the one before it has ended, and nothing follows the last one. -/
def Linked : World (Event κ) → Workload → List (Phase κ) → World (Event κ) → Prop
  | w, _, [], v => v = w
  | w, work, p :: phases, v =>
    p.before.world = w ∧ p.before.work = work ∧ Linked p.after.world p.after.work phases v

namespace Phases

variable {sizes : List UInt64} {phases : List (Phase κ)} {failure : Option Failure}

/-- The phases are in the order of the sizes. -/
theorem sizes_prefix (h : Phases config registry set token first sizes w work phases failure v) :
    phases.map (·.size) <+: sizes := by
  induction h with
  | finished => exact List.nil_prefix
  | refused => exact List.nil_prefix
  | failed sizes h hfailure => exact List.cons_prefix_cons.2 ⟨rfl, List.nil_prefix⟩
  | passed h hfailure hrest ih => exact List.cons_prefix_cons.2 ⟨rfl, ih⟩

theorem linked (h : Phases config registry set token first sizes w work phases failure v) :
    Linked w work phases v := by
  induction h with
  | finished => rfl
  | refused => rfl
  | failed sizes h hfailure => exact ⟨rfl, rfl, rfl⟩
  | passed h hfailure hrest ih => exact ⟨rfl, rfl, ih⟩

/-- Only the first phase warms up, if any. -/
theorem stands (h : Phases config registry set token first sizes w work phases failure v) (j : Nat)
    (p : Phase κ) (hp : phases[j]? = some p) :
    p.Stands config registry set (first && j == 0) token := by
  induction h generalizing j with
  | finished => cases hp
  | refused => cases hp
  | @failed first q f sizes h hfailure =>
    cases j with
    | succ j => cases hp
    | zero =>
      cases hp
      simpa using h
  | @passed first q sizes phases failure v h hfailure hrest ih =>
    cases j with
    | succ j => simpa using ih j hp
    | zero =>
      cases hp
      simpa using h

/-- Only the last phase can have failed. -/
theorem passed_of_mem_dropLast
    (h : Phases config registry set token first sizes w work phases failure v) :
    ∀ p ∈ phases.dropLast, p.Passed config := by
  induction h with
  | finished => exact fun _ hp => by cases hp
  | refused => exact fun _ hp => by cases hp
  | failed sizes h hfailure => exact fun _ hp => by cases hp
  | @passed first q sizes phases failure v h hfailure hrest ih =>
    intro p hp
    cases phases with
    | nil => cases hp
    | cons next phases =>
      rcases List.mem_cons.1 hp with rfl | hp
      · exact h.passed hfailure
      · exact ih p hp

/-- There is no failure exactly where a phase of each size has ended without one. -/
theorem failure_eq_none_iff
    (h : Phases config registry set token first sizes w work phases failure v) :
    failure = none ↔ phases.map (·.size) = sizes ∧ ∀ p ∈ phases, p.failure = none := by
  induction h with
  | finished => simp
  | refused => simp
  | failed sizes h hfailure => simp [hfailure]
  | passed h hfailure hrest ih => simp [ih, hfailure]

/-- The failure is that of the last phase, or the next one could not be made. -/
theorem of_failure (h : Phases config registry set token first sizes w work phases failure v)
    {f : Failure} (hf : failure = some f) :
    (∃ p, phases.getLast? = some p ∧ p.failure = some f) ∨
      ∃ size cause, sizes[phases.length]? = some size ∧
        Run.ofRegistry (config.forPhase size) registry set = .error cause ∧
        f = .misconfigured cause ∧ ∀ p ∈ phases, p.failure = none := by
  induction h with
  | finished => cases hf
  | refused first sizes w work h =>
    cases hf
    exact .inr ⟨_, _, rfl, h, rfl, fun _ hp => by cases hp⟩
  | failed sizes h hfailure =>
    cases hf
    exact .inl ⟨_, rfl, hfailure⟩
  | @passed first q sizes phases failure v h hfailure hrest ih =>
    rcases ih hf with ⟨p, hp, hfailed⟩ | ⟨size, cause, hsize, hrun, hcause, hnone⟩
    · refine .inl ⟨p, ?_, hfailed⟩
      rw [List.getLast?_cons, hp]
      rfl
    · refine .inr ⟨size, cause, hsize, hrun, hcause, fun p hp => ?_⟩
      rcases List.mem_cons.1 hp with rfl | hp
      · exact hfailure
      · exact hnone p hp

end Phases

/-! ## Going through the sizes -/

variable {plan : Plan} {size : UInt64} {done : List RunResult} {run : Run κ}

omit [Device κ] in
/-- The session in which a phase begins. -/
def Session.ofPhase (run : Run κ) (work : Workload) (w : World (Event κ)) : Session κ :=
  { world := w, work := work, run := { run with mode := .accumulate } }

/-- A phase that is made always ends, and leaves behind what it has measured. -/
theorem exists_stands (hsteady : ∀ c ∈ run.collectors, Device.Steady c.device)
    (htakes : run.Takes sizeMetric) (hw : w.horizon = none)
    (hrun : Run.ofRegistry (config.forPhase size) registry set = .ok run) (first : Bool)
    (work : Workload) (token : Token) :
    ∃ p : Phase κ, p.size = size ∧ p.before = .ofPhase run work w ∧
      p.Stands config registry set first token ∧ p.after.world.horizon = none ∧
      runPhase first size token (.ofPhase run work w) = p.ending := by
  obtain ⟨hfresh, hconfig⟩ := Session.fresh_of_registry (s := .ofPhase run work w) hrun rfl
  have hsize : (Session.ofPhase run work w).run.config.executions = size.toNat := by
    rw [hconfig]
    rfl
  have hname : sizeMetric ∉ run.names := Run.not_mem_names_of_phase hrun
  obtain ⟨p, hp, hbefore, hran, honward, hholds⟩ :=
    Run.exists_phase hfresh hsteady htakes hname hw hsize first token
  have hhorizon : p.after.world.horizon = none := honward.world.horizon.trans hw
  refine ⟨p, hp, hbefore, ?_, hhorizon, hran⟩
  constructor
  case made => exact ⟨run, hp ▸ hrun, by rw [hbefore]; rfl⟩
  case ran => rw [hp, hbefore, hran]
  case holds => exact hholds

/-- The phases go on with the next size, if the one that has ended did not fail. -/
theorem runPhases_of_phase {p : Phase κ} (hsize : ¬ plan.max < size)
    (hrun : Run.ofRegistry (config.forPhase size) registry set = .ok run)
    (hran : runPhase first size token (.ofPhase run work w) = p.ending)
    (hresult : p.after.run.result = .ok p.result) :
    runPhases config plan registry set token first work done size w =
      match p.failure with
      | some f => .ok ⟨(p.result :: done).reverse, some f⟩ p.after.world
      | none =>
        match plan.next? size with
        | none => .ok ⟨(p.result :: done).reverse, none⟩ p.after.world
        | some size' =>
          runPhases config plan registry set token false p.after.work (p.result :: done) size'
            p.after.world := by
  have hduring : Session.during { run with mode := .accumulate } work
      (settle (runPhase first size token)) w =
        .ok (p.failure.elim (.ok ()) .error, p.after.run, p.after.work) p.after.world := by
    have hsettled : settle (runPhase first size token) (.ofPhase run work w) =
        .ok (p.failure.elim (.ok ()) .error) p.after := by
      rw [settle, hran, Phase.ending]
      cases p.failure <;> rfl
    rw [Session.ofPhase] at hsettled
    rw [Session.during, hsettled]
  rw [runPhases, if_neg hsize, hrun]
  dsimp only
  rw [bind_of_ok hduring]
  dsimp only
  rw [hresult]
  cases p.failure with
  | some f => rfl
  | none =>
    dsimp only [Option.elim]
    cases plan.next? size with
    | none => rfl
    | some size' => rfl

/-- A throughput run has ended, with the results of the phases it has gone through behind those that
were there already. -/
def Traversed (config : Configuration) (registry : Registry κ) (set : CollectorSet) (token : Token)
    (first : Bool) (sizes : List UInt64) (w : World (Event κ)) (work : Workload)
    (done : List RunResult) (r : EStateM.Result Halt (World (Event κ)) ThroughputRun) : Prop :=
  ∃ phases failure v, r = .ok ⟨done.reverse ++ phases.map (·.result), failure⟩ v ∧
    Phases config registry set token first sizes w work phases failure v

/-- The phase of a size is run, where the phases behind it are gone through. -/
theorem traversed_runPhases {sizes : List UInt64} (hsize : ¬ plan.max < size)
    (hsupports : config.Supports registry set (size :: sizes)) (hw : w.horizon = none)
    (hrest : ∀ p : Phase κ, p.after.world.horizon = none →
      Traversed config registry set token false sizes p.after.world p.after.work (p.result :: done)
        (match plan.next? size with
          | none => .ok ⟨(p.result :: done).reverse, none⟩ p.after.world
          | some size' =>
            runPhases config plan registry set token false p.after.work (p.result :: done) size'
              p.after.world)) :
    Traversed config registry set token first (size :: sizes) w work done
      (runPhases config plan registry set token first work done size w) := by
  cases hrun : Run.ofRegistry (config.forPhase size) registry set with
  | error cause =>
    refine ⟨[], some (.misconfigured cause), w, ?_, .refused first sizes w work hrun⟩
    rw [runPhases, if_neg hsize, hrun, List.map_nil, List.append_nil]
    rfl
  | ok run =>
    obtain ⟨hsteady, htakes⟩ := hsupports size List.mem_cons_self run hrun
    obtain ⟨p, rfl, hbefore, hstands, hhorizon, hran⟩ :=
      exists_stands hsteady htakes hw hrun first work token
    obtain ⟨samples, hholds⟩ := hstands.holds
    have hworld : p.before.world = w := by rw [hbefore]; rfl
    have hwork : p.before.work = work := by rw [hbefore]; rfl
    subst hworld hwork
    rw [runPhases_of_phase hsize hrun hran (Run.result_of_sealed hholds.store)]
    cases hfailure : p.failure with
    | some f =>
      refine ⟨[p], some f, p.after.world, ?_, .failed sizes hstands hfailure⟩
      rw [List.reverse_cons]
      rfl
    | none =>
      obtain ⟨phases, failure, v, hanswer, hphases⟩ := hrest p hhorizon
      refine ⟨p :: phases, failure, v, ?_, .passed hstands hfailure hphases⟩
      rw [List.map_cons, List.append_cons, ← List.reverse_cons]
      exact hanswer

/-- **A throughput run goes through its sizes**, one phase after the other. -/
theorem runPhases_phases (hsupports : config.Supports registry set (plan.sizesFrom size))
    (hw : w.horizon = none) (first : Bool) (work : Workload) (done : List RunResult)
    (token : Token) :
    Traversed config registry set token first (plan.sizesFrom size) w work done
      (runPhases config plan registry set token first work done size w) := by
  induction size using Plan.sizesFrom.induct plan generalizing first w work done with
  | case1 size hsize =>
    rw [runPhases, if_pos hsize, Plan.sizesFrom_of_lt hsize]
    refine ⟨[], none, w, ?_, .finished first w work⟩
    rw [List.map_nil, List.append_nil]
    rfl
  | case2 size hsize hlast =>
    rw [Plan.sizesFrom_of_last hsize hlast] at hsupports ⊢
    apply traversed_runPhases hsize hsupports hw
    intro p hhorizon
    rw [hlast]
    refine ⟨[], none, p.after.world, ?_, .finished false p.after.world p.after.work⟩
    rw [List.map_nil, List.append_nil]
  | case3 size hsize size' hnext _ ih =>
    rw [Plan.sizesFrom_of_next hsize hnext] at hsupports ⊢
    apply traversed_runPhases hsize hsupports hw
    intro p hhorizon
    rw [hnext]
    exact ih (fun size hmem => hsupports size (List.mem_cons_of_mem _ hmem)) hhorizon false
      p.after.work (p.result :: done)

/-- What a throughput run hands over: the results of the phases it has started, in the order of
their sizes.  All of them but the last have passed, and only the first one warms up.  There is no
failure exactly where a phase of each size has ended without one; otherwise it is that of the last
phase, or the next one could not be made. -/
structure ThroughputRun.Keeps (config : Configuration) (plan : Plan) (registry : Registry κ)
    (set : CollectorSet) (token : Token) (work : Workload) (w v : World (Event κ))
    (t : ThroughputRun) (phases : List (Phase κ)) : Prop where
  results : t.phases = phases.map (·.result)
  sizes : phases.map (·.size) <+: plan.sizes
  grows : phases.Pairwise fun p q => p.size < q.size
  linked : Linked w work phases v
  stands : ∀ (j : Nat) (p : Phase κ), phases[j]? = some p →
    p.Stands config registry set (j == 0) token
  passed : ∀ p ∈ phases.dropLast, p.Passed config
  warmsOnce : ∀ p ∈ phases.tail, p.OnlyMeasures
  success : t.failure = none ↔
    phases.map (·.size) = plan.sizes ∧ ∀ p ∈ phases, p.failure = none
  failed : ∀ f, t.failure = some f →
    (∃ p, phases.getLast? = some p ∧ p.failure = some f) ∨
      ∃ size cause, plan.sizes[phases.length]? = some size ∧
        Run.ofRegistry (config.forPhase size) registry set = .error cause ∧
        f = .misconfigured cause ∧ ∀ p ∈ phases, p.failure = none

/-- **A throughput run keeps the phases it has started**, in the order of their sizes. -/
theorem runThroughput_keeps_phases (hsupports : config.Supports registry set plan.sizes)
    (hw : w.horizon = none) (work : Workload) (token : Token) :
    ∃ phases t v, runThroughput config plan registry set work token w = .ok t v ∧
      t.Keeps config plan registry set token work w v phases := by
  obtain ⟨phases, failure, v, hanswer, hphases⟩ :=
    runPhases_phases hsupports hw true work [] token
  refine ⟨phases, _, v, hanswer, ?_⟩
  have hsizes := hphases.sizes_prefix
  constructor
  case results => exact List.nil_append _
  case sizes => exact hsizes
  case grows =>
    have hgrows := plan.pairwise_sizesFrom plan.start
    exact List.pairwise_map.1 (hgrows.sublist hsizes.sublist)
  case linked => exact hphases.linked
  case stands => exact fun j p hp => hphases.stands j p hp
  case passed => exact hphases.passed_of_mem_dropLast
  case warmsOnce =>
    intro p hp
    obtain ⟨j, hj⟩ := List.mem_iff_getElem?.1 hp
    rw [List.getElem?_tail] at hj
    exact (hphases.stands (j + 1) p hj).onlyMeasures
  case success => exact hphases.failure_eq_none_iff
  case failed => exact fun f hf => hphases.of_failure hf

end

/-! ## Two throughput runs -/

/-- What the samples of each phase hold of its size. -/
def ThroughputRun.sizesShown (t : ThroughputRun) : List (Option (List (Option Int64))) :=
  t.phases.map fun r => (r.reader.values sizeMetric).toOption

/-- Whether a throughput run has succeeded, and the sizes that its samples hold. -/
def shownBy : EStateM.Result Halt (World (Event Instrument)) ThroughputRun →
    Option (Bool × List (Option (List (Option Int64))))
  | .ok t _ => some (t.isSuccess, t.sizesShown)
  | .error _ _ => none

theorem eq_of_shownBy {r : EStateM.Result Halt (World (Event Instrument)) ThroughputRun}
    {success : Bool} {shown : List (Option (List (Option Int64)))}
    (h : shownBy r = some (success, shown)) :
    ∃ t v, r = .ok t v ∧ t.isSuccess = success ∧ t.sizesShown = shown := by
  cases r with
  | error e v => cases h
  | ok t v =>
    obtain ⟨hsuccess, hshown⟩ := Prod.mk.inj (Option.some.inj h)
    exact ⟨t, v, rfl, hsuccess, hshown⟩

/-- A registry with a collector that goes on from where it was. -/
def working : Registry Instrument where
  constructors := .ofList
    [("work", .ok ⟨"work", 1, .playback { values := #[7, 9], resumes := true }⟩)]

/-- The record of its only collector fits a frame, also with a size. -/
theorem supports_working (config : Configuration) (sizes : List UInt64) :
    config.Supports working ["work"] sizes := by
  intro size _ run hrun
  have hinstantiated : working.instantiate ["work"] =
      .ok [⟨"work", 1, .playback { values := #[7, 9], resumes := true }⟩] := by rfl
  rw [Run.ofRegistry, hinstantiated] at hrun
  obtain ⟨-, -, rfl⟩ := Run.create_eq_ok_iff.1 hrun
  constructor
  · intro c hc
    rw [List.mem_singleton.1 hc]
    have hunbroken : (Instrument.playback { values := #[7, 9], resumes := true }).Unbroken := by
      decide
    exact hunbroken.steady
  · intro _
    have hfits : Ledger.Fits ⟨0, (Named.ofList [("work", 0)]).insert sizeMetric 0⟩ := by decide
    exact hfits

def effortless : Workload where
  body := { script := fun _ => .succeed }

def uncancelled : World (Event Instrument) where
  tokens := { cells := #[{}] }

/-- The mean of the sizes has a ceiling. -/
def capped : Configuration where
  warmup := 1
  ceilings := .ofList [(sizeMetric, 2)]

/-- The second phase reaches the ceiling, and the third one is not started. -/
theorem runThroughput_keeps_phases_capped :
    capped.Supports working ["work"] (Plan.sizes ⟨1, 1, 3⟩) ∧ uncancelled.horizon = none ∧
      ∃ phases t v,
        runThroughput capped ⟨1, 1, 3⟩ working ["work"] effortless ⟨0, []⟩ uncancelled = .ok t v ∧
        t.Keeps capped ⟨1, 1, 3⟩ working ["work"] ⟨0, []⟩ effortless uncancelled v phases ∧
        t.isSuccess = false ∧ t.sizesShown = [some [some 1], some [none, some 2]] := by
  have hsupports := supports_working capped (Plan.sizes ⟨1, 1, 3⟩)
  have hhorizon : uncancelled.horizon = none := rfl
  obtain ⟨t, v, hanswer, hsuccess, hshown⟩ : ∃ t v,
      runThroughput capped ⟨1, 1, 3⟩ working ["work"] effortless ⟨0, []⟩ uncancelled = .ok t v ∧
        t.isSuccess = false ∧ t.sizesShown = [some [some 1], some [none, some 2]] :=
    eq_of_shownBy (by decide +kernel)
  obtain ⟨phases, t', v', hanswer', hkeeps⟩ :=
    runThroughput_keeps_phases hsupports hhorizon effortless ⟨0, []⟩
  obtain ⟨rfl, rfl⟩ := EStateM.Result.ok.inj (hanswer.symm.trans hanswer')
  exact ⟨hsupports, hhorizon, phases, t, v, hanswer, hkeeps, hsuccess, hshown⟩

/-- The only size of this plan is not a value. -/
def beyondValues : Plan := ⟨9223372036854775808, 9223372036854775808, 9223372036854775808⟩

/-- Two iterations are enough. -/
def easygoing : Configuration where
  warmup := 0
  minEarlyStop := 2
  thresholds := .ofList [("work", 1)]

/-- **A size that is not a value is noted as the largest value.** -/
theorem last_size_ne_beyondValues :
    beyondValues.sizes = [beyondValues.start] ∧
      easygoing.Supports working ["work"] beyondValues.sizes ∧ uncancelled.horizon = none ∧
      ∃ t v r value,
        runThroughput easygoing beyondValues working ["work"] effortless ⟨0, []⟩ uncancelled =
          .ok t v ∧
        t.failure = none ∧ t.phases = [r] ∧
        r.reader.values sizeMetric = .ok [none, some value] ∧
        value.toInt ≠ (beyondValues.start.toNat : Int) := by
  obtain ⟨t, v, hanswer, hsuccess, hshown⟩ : ∃ t v,
      runThroughput easygoing beyondValues working ["work"] effortless ⟨0, []⟩ uncancelled =
          .ok t v ∧
        t.isSuccess = true ∧ t.sizesShown = [some [none, some Int64.maxValue]] :=
    eq_of_shownBy (by decide +kernel)
  obtain ⟨r, hphases, hvalues⟩ := List.map_eq_singleton_iff.1 hshown
  have hsizes : beyondValues.sizes = [beyondValues.start] :=
    Plan.sizesFrom_of_last (by decide) (by decide)
  refine ⟨hsizes, supports_working _ _, rfl, t, v, r, Int64.maxValue, hanswer, ?_, hphases, ?_, ?_⟩
  · exact Option.isNone_iff_eq_none.1 hsuccess
  · cases hread : r.reader.values sizeMetric with
    | error fault =>
      rw [hread] at hvalues
      cases hvalues
    | ok values =>
      rw [hread] at hvalues
      exact congrArg Except.ok (Option.some.inj hvalues)
  · decide

end Gauge
