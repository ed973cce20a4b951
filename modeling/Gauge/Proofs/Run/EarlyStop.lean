import Gauge.Proofs.Run.Bracket

/-!
# Stopping early

A run stops early after the first iteration where the spread of its metrics is small enough.  Its
accumulators have counted the samples, so the rule can be stated on these.

## Main definitions

* `Configuration.stopsAfter` — the rule for stopping early.
* `Configuration.allowed` — how many measured iterations the rule allows.

## Main statements

* `Run.converged_eq` — a run goes by the rule.
-/

namespace Gauge

namespace Configuration

/-- The rule for stopping early, after iterations with the given samples: the smallest number of
iterations is reached, and for every threshold there are values whose relative standard deviation is
at most that. -/
def stopsAfter (config : Configuration) (samples : List Sample) : Bool :=
  config.minEarlyStop ≤ samples.length && config.earlyStopEnabled &&
    config.thresholds.entries.all fun (metric, threshold) =>
      match tallyOf? (series samples metric) with
      | some tally => tally.relativeStdDev ≤ threshold
      | none => false

/-- The number of iterations that the rule for stopping early allows: up to the first one after
which it stops the run, or all that are planned. -/
def allowed (config : Configuration) (samples : List Sample) : Nat :=
  ((List.range' 1 config.executions).find? fun i => config.stopsAfter (samples.take i)).getD
    config.executions

/-- The number of iterations that the rule allows after `k` of them, if `n` more are planned. -/
def allowedFrom (config : Configuration) (samples : List Sample) (k : Nat) : Nat → Nat
  | 0 => 0
  | n + 1 =>
    if config.stopsAfter (samples.take (k + 1)) then 1
    else config.allowedFrom samples (k + 1) n + 1

/-- Whether the rule stops the run after more than `k` iterations, if `n` more are planned. -/
def stopsFrom (config : Configuration) (samples : List Sample) (k n : Nat) : Bool :=
  (List.range' (k + 1) n).any fun i => config.stopsAfter (samples.take i)

theorem stopsFrom_succ (config : Configuration) (samples : List Sample) (k n : Nat) :
    config.stopsFrom samples k (n + 1) =
      (config.stopsAfter (samples.take (k + 1)) || config.stopsFrom samples (k + 1) n) := by
  rw [stopsFrom, List.range'_succ, List.any_cons]
  rfl

/-- One of at least one more iteration is always allowed. -/
theorem exists_allowedFrom_succ (config : Configuration) (samples : List Sample) (k n : Nat) :
    ∃ m, config.allowedFrom samples k (n + 1) = m + 1 := by
  rw [allowedFrom]
  split
  · exact ⟨0, rfl⟩
  · exact ⟨_, rfl⟩

theorem allowedFrom_eq (config : Configuration) (samples : List Sample) (k n : Nat) :
    k + config.allowedFrom samples k n =
      ((List.range' (k + 1) n).find? fun i => config.stopsAfter (samples.take i)).getD (k + n) := by
  induction n generalizing k with
  | zero => rfl
  | succ n ih =>
    rw [allowedFrom, List.range'_succ, List.find?_cons]
    cases config.stopsAfter (samples.take (k + 1)) with
    | true => rfl
    | false =>
      have hnext := ih (k + 1)
      rw [show k + (n + 1) = k + 1 + n by omega]
      simp only [Bool.false_eq_true, if_false]
      omega

theorem allowedFrom_zero (config : Configuration) (samples : List Sample) :
    config.allowedFrom samples 0 config.executions = config.allowed samples := by
  have h := config.allowedFrom_eq samples 0 config.executions
  rw [Nat.zero_add, Nat.zero_add, Nat.zero_add] at h
  exact h

/-- No more than the planned iterations are allowed. -/
theorem allowed_le (config : Configuration) (samples : List Sample) :
    config.allowed samples ≤ config.executions := by
  rw [allowed]
  cases hfind : (List.range' 1 config.executions).find? fun i =>
      config.stopsAfter (samples.take i) with
  | none => exact le_rfl
  | some n =>
    have hrange := List.mem_range'_1.1 (List.mem_of_find?_eq_some hfind)
    rw [Option.getD_some]
    omega

/-- Without thresholds all planned iterations are allowed. -/
theorem allowed_of_disabled {config : Configuration} (h : config.earlyStopEnabled = false)
    (samples : List Sample) : config.allowed samples = config.executions := by
  have hnone : (List.range' 1 config.executions).find?
      (fun i => config.stopsAfter (samples.take i)) = none :=
    List.find?_eq_none.2 fun i _ => by simp [stopsAfter, h]
  rw [allowed, hnone, Option.getD_none]

end Configuration

namespace Run

open Session

variable {κ : Type} [Device κ] {s₀ s : Session κ} {l : Ledger} {collecting : Bool}

omit [Device κ] in
/-- A run whose store follows a ledger converges as the rule for stopping early says of its
samples. -/
theorem converged_of_follows {w : Writer} (hstore : s.run.store = .writing w) (h : w.Follows l) :
    s.run.converged l.samples.length = s.run.config.stopsAfter l.samples := by
  have hspread (metric : String) : s.run.spread? metric =
      (tallyOf? (series l.samples metric)).map Running.relativeStdDev := by
    simp only [spread?, hstore, Writer.running?, h.tallies, Tallies.find?_ofSamples]
  rw [converged, Configuration.stopsAfter, isSpreadBelow]
  congr 2
  funext e
  obtain ⟨metric, threshold⟩ := e
  simp only [hspread]
  cases tallyOf? (series l.samples metric) <;> rfl

/-- So does a run on its way. -/
theorem converged_eq (h : Tracks s₀ l collecting s) :
    s.run.converged l.samples.length = s₀.run.config.stopsAfter l.samples := by
  obtain ⟨w, hstore, hfollows, -⟩ := h.store
  rw [converged_of_follows hstore hfollows, h.onward.config]

end Run

end Gauge
