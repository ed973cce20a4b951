import Gauge.Run.Loop

/-!
# Throughput runs

A throughput run repeats the measured part in phases of growing size.  Every phase is a run of its
own whose collectors keep their sums from one iteration to the next, and notes its size as a user
value on its last sample.

## Main definitions

* `Plan` — first size, growth and largest size of the phases.
* `Plan.sizes` — the sizes of the phases.
* `runPhase`, `runThroughput` — one phase, and all of them.
-/

namespace Gauge

/-- The sizes of the phases: from `start` in steps of `step` up to `max`. -/
structure Plan where
  start : UInt64
  step : UInt64
  max : UInt64
  deriving DecidableEq

namespace Plan

/-- A plan that starts and grows and does not start above its largest size. -/
def create (start step max : UInt64) : Except Misconfiguration Plan :=
  if start = 0 ∨ step = 0 then .error .stillPlan
  else if max < start then .error (.invertedPlan start.toNat max.toNat)
  else .ok { start := start, step := step, max := max }

/-- The growth from one phase to the next; a plan that does not grow grows by one. -/
def growth (p : Plan) : UInt64 := if p.step = 0 then 1 else p.step

/-- The next size, if it is a word. -/
def next? (p : Plan) (size : UInt64) : Option UInt64 :=
  if size + p.growth < size then none else some (size + p.growth)

theorem growth_pos (p : Plan) : 0 < p.growth.toNat := by
  unfold growth
  split
  · decide
  · next h =>
    have : p.step.toNat ≠ 0 := fun e => h (UInt64.toNat_inj.1 e)
    omega

theorem lt_of_next? {p : Plan} {size size' : UInt64} (h : p.next? size = some size') :
    size.toNat < size'.toNat := by
  unfold next? at h
  split at h
  · cases h
  · next hle =>
    cases h
    have hg := p.growth_pos
    rw [UInt64.lt_iff_toNat_lt] at hle
    rw [UInt64.toNat_add] at hle ⊢
    have h1 := size.toNat_lt
    have h2 := p.growth.toNat_lt
    omega

/-- The phase sizes from a given one on. -/
def sizesFrom (p : Plan) (size : UInt64) : List UInt64 :=
  if p.max < size then []
  else
    match h : p.next? size with
    | none => [size]
    | some size' =>
      have := lt_of_next? h
      size :: p.sizesFrom size'
termination_by UInt64.size - size.toNat
decreasing_by
  have := size'.toNat_lt_size
  omega

def sizes (p : Plan) : List UInt64 := p.sizesFrom p.start

/-- At most `n` phase sizes from a given one on, without looking at those behind them. -/
def firstSizesFrom (p : Plan) (size : UInt64) : Nat → List UInt64
  | 0 => []
  | n + 1 =>
    if p.max < size then []
    else
      match p.next? size with
      | none => [size]
      | some size' => size :: p.firstSizesFrom size' n

/-- At most `n` phase sizes. -/
def firstSizes (p : Plan) (n : Nat) : List UInt64 := p.firstSizesFrom p.start n

theorem firstSizesFrom_eq (p : Plan) (n : Nat) (size : UInt64) :
    p.firstSizesFrom size n = (p.sizesFrom size).take n := by
  induction n generalizing size with
  | zero => simp [firstSizesFrom]
  | succ n ih =>
    unfold firstSizesFrom sizesFrom
    split
    · simp
    · split <;> split <;> simp_all

end Plan

/-- The user metric that holds the size of a phase. -/
def sizeMetric : String := "size"

/-- The phases of a throughput run. -/
structure ThroughputRun where
  /-- the results of all phases that were started -/
  phases : List RunResult
  /-- the failure that ended the run -/
  failure : Option Failure

def ThroughputRun.isSuccess (t : ThroughputRun) : Bool := t.failure.isNone

variable {κ : Type} [Device κ]

/-- A size as a user value. -/
def sizeValue (size : UInt64) : Int64 := valueOfWord size

/-- One phase.  Only the first one warms up. -/
def runPhase (first : Bool) (size : UInt64) (token : Token) : Step κ Unit := do
  Run.prepare
  let warm ← settle (if first then Run.warmup token else pure ())
  match warm with
  | .error f => Run.finalize (some f)
  | .ok () =>
    Run.mainLoop token
    if (← Step.theRun).executions > 0 then Run.attach sizeMetric (sizeValue size)
    Run.finalize none
    Run.checkOwnCeilings

/-- The configuration of a phase. -/
def Configuration.forPhase (c : Configuration) (size : UInt64) : Configuration :=
  { c with executions := size.toNat, userMetrics := c.userMetrics.insert sizeMetric () }

/-- Runs the phases from a given size on, after those that were run already, latest first. -/
def runPhases (config : Configuration) (plan : Plan) (registry : Registry κ) (set : CollectorSet)
    (token : Token) (first : Bool) (work : Workload) (done : List RunResult) (size : UInt64) :
    Act (Event κ) ThroughputRun :=
  if plan.max < size then return { phases := done.reverse, failure := none }
  else
    match Run.ofRegistry (config.forPhase size) registry set with
    | .error cause => return { phases := done.reverse, failure := some (.misconfigured cause) }
    | .ok run => do
      let (outcome, run, work) ← Session.during { run with mode := .accumulate } work
        (settle (runPhase first size token))
      let done := match run.result with
        | .ok result => result :: done
        | .error _ => done
      match outcome with
      | .error failure => return { phases := done.reverse, failure := some failure }
      | .ok () =>
        match h : plan.next? size with
        | none => return { phases := done.reverse, failure := none }
        | some size' =>
          have := Plan.lt_of_next? h
          runPhases config plan registry set token false work done size'
termination_by UInt64.size - size.toNat
decreasing_by
  have := size'.toNat_lt_size
  omega

/-- Runs all phases of a plan. -/
def runThroughput (config : Configuration) (plan : Plan) (registry : Registry κ)
    (set : CollectorSet) (work : Workload) (token : Token) : Act (Event κ) ThroughputRun :=
  runPhases config plan registry set token true work [] plan.start

end Gauge
