import Gauge.Proofs.Run.Success
import Gauge.Proofs.Suite.Cause

/-!
# Methods that pass

A method passes only if its work has answered in time that it succeeded.  So the run was made, all
calls of its schedule were made and none of them has failed, and the samples that are handed over
are complete, whatever else a method, its registry and its workload are like.

## Main definitions

* `Method.session` — the session of a method's work.
* `Method.Vouched` — what stands behind the outcome of a method that has passed.

## Main statements

* `Method.finished_of_passed` — only work that succeeds in time passes.
* `Method.succeeds_work` — what work leaves that succeeds.
* `Method.passed_is_sound` — a method that has passed.
-/

namespace Gauge

namespace Method

variable {κ : Type} {m : Method κ} {registry : Registry κ} {token : Token} {w v u : World (Event κ)}
  {run : Run κ} {workload : Workload}

/-! ## What an outcome is made of -/

/-- An ending that passes is one without a failure. -/
theorem ok_of_passed {name : String} {ending : Except Failure Unit} {result : Option RunResult}
    {duration : Duration}
    (h : (MethodOutcome.ofEnding name ending result duration).status = .passed) :
    ending = .ok () := by
  cases ending with
  | ok _ => rfl
  | error f => cases f <;> cases h

/-- The reason of a token does not turn a failure into success. -/
theorem ok_of_attributed {bound : TimeBound} {reason : Option Scope} {ending : Except Failure Unit}
    (h : attributed bound reason ending = .ok ()) : ending = .ok () := by
  cases ending with
  | ok _ => rfl
  | error f => cases f <;> cases h

/-- **Only work that succeeds in time passes**, and its result is handed over without a message. -/
theorem finished_of_passed
    {answer : Except Failure (Bounded (Except Failure Unit × Run κ × Workload))} {tokens : Tokens}
    {duration : Duration} (h : (m.outcome token answer tokens duration).status = .passed) :
    ∃ data, answer = .ok (.finished (.ok (), data)) ∧
      m.outcome token answer tokens duration =
        .ofEnding m.name (.ok ()) data.1.result.toOption duration := by
  have hended := ok_of_passed h
  cases answer with
  | error f => cases ok_of_attributed hended
  | ok bounded =>
    cases bounded with
    | timedOut late => cases ok_of_attributed hended
    | finished value =>
      obtain ⟨ending, data⟩ := value
      obtain rfl := ok_of_attributed hended
      exact ⟨data, rfl, rfl⟩

/-! ## The work of a method that passes -/

def session (m : Method κ) (token : Token) (w : World (Event κ)) (run : Run κ)
    (workload : Workload) : Session κ where
  world := m.bound.begun token w
  work := workload
  run := run

variable [Device κ]

/-- What work leaves that succeeds. -/
theorem succeeds_work (hrun : Run.ofRegistry m.config registry m.collectors = .ok run) :
    Yields (work token run workload) (m.bound.begun token w) fun r u =>
      ∀ data, r = .ok (.ok (), data) → ∃ samples t,
        (m.session token w run workload).Succeeded samples t ∧ t.run = data.1 ∧ t.world = u := by
  have hfresh : (m.session token w run workload).Fresh := (Session.fresh_of_registry hrun rfl).1
  refine Session.yields_during ((yields_settle _).2 ?_)
  refine Yields.mono (Run.succeeded_of_ok hfresh token) ?_
  intro r t hsucceeded data hdata
  cases r with
  | ok _ =>
    obtain ⟨samples, hsamples⟩ := hsucceeded rfl
    cases hdata
    exact ⟨samples, t, hsamples, rfl, rfl⟩
  | error e =>
    cases e with
    | failure f => cases hdata
    | panic p => cases hdata
    | abandoned => cases hdata

omit [Device κ] in
/-- What stands behind the outcome of a method that has passed.  Its run has ended before the
deadline and all calls of the schedule were made, none of which has failed; it is complete with a
sample for each measured iteration; these are as many as planned, or enough of them to stop early;
and no recorded mean has reached its ceiling. -/
structure Vouched (m : Method κ) (w v : World (Event κ)) (s : Session κ) (samples : List Sample)
    (o : MethodOutcome) (result : RunResult) : Prop where
  message : o.message = none
  handed : o.result = some result
  complete : result.status = .complete
  inTime : v.clock < w.clock + m.config.timeout.nanos
  calls : (s.work.play (s.schedule samples.length)).failure = none
  beats : v.beats = w.beats ++ s.schedule samples.length
  executions : result.executions = samples.length
  enough : result.earlyStopped = false ∧ samples.length = m.config.executions ∨
    result.earlyStopped = true ∧ m.config.Admissible samples samples.length
  shows : result.reader.Shows samples
  summaries : ∀ metric, result.reader.summary? metric =
    Summary.ofSeriesIn (.ofPlanned m.config.executions) (series samples metric)
  ceilings : ∀ e ∈ m.config.ceilings.entries, ∀ summary,
    result.reader.summary? e.1 = some summary → ¬ Float.ofInt e.2.toInt ≤ summary.mean

omit [Device κ] in
/-- What a run leaves that succeeds stands behind the outcome that it is handed over with. -/
theorem vouched_of_succeeded {samples : List Sample} {t : Session κ} {duration : Duration}
    (hconfig : (m.session token w run workload).run.config = m.config)
    (h : (m.session token w run workload).Succeeded samples t)
    (htime : t.world.clock < w.clock + m.config.timeout.nanos)
    (hleaves : TimeBound.Leaves w t.world v) :
    ∃ result, m.Vouched w v (m.session token w run workload) samples
      (.ofEnding m.name (.ok ()) t.run.result.toOption duration) result := by
  obtain ⟨reader, hstore, hshows, hsummary⟩ := h.reader
  have henough := h.enough
  have hceilings := h.ceilings
  rw [hconfig] at hsummary henough hceilings
  refine ⟨⟨t.run.status, t.run.executions, t.run.earlyStopped, reader⟩, ?_⟩
  constructor
  case message => rfl
  case handed =>
    rw [Run.result_of_sealed hstore]
    rfl
  case complete => exact h.status
  case inTime =>
    rw [hleaves.clock]
    exact htime
  case calls => exact h.calls
  case beats =>
    have hbeats : v.beats = t.world.beats := by
      rw [World.beats, World.beats, World.events, World.events, hleaves.journal]
    have hbegun : (m.session token w run workload).world.beats = w.beats :=
      (World.silent_passUntil (w.setAlarm (m.bound.alarm token w)) w.clock).beats
    rw [hbeats, ← hbegun]
    exact h.beats
  case executions => exact h.executions
  case enough => exact henough
  case shows => exact hshows
  case summaries => exact hsummary
  case ceilings =>
    intro e he summary hsome hreached
    apply hceilings e he summary.mean
    exact ⟨summary, hsummary e.1 ▸ hsome, rfl, hreached⟩

/-- **A method that has passed** has made its run and its workload, and what they have left stands
behind the outcome. -/
theorem passed_is_sound {o : MethodOutcome} (h : m.execute registry token w = .ok o v)
    (hpassed : o.status = .passed) :
    ∃ run workload samples result,
      Run.ofRegistry m.config registry m.collectors = .ok run ∧ m.factory = .ok workload ∧
        m.Vouched w v (m.session token w run workload) samples o result := by
  have hyields : Yields (m.execute registry token) w fun r v => ∀ o, r = .ok o →
      o.status = .passed → ∃ run workload samples result,
        Run.ofRegistry m.config registry m.collectors = .ok run ∧ m.factory = .ok workload ∧
          m.Vouched w v (m.session token w run workload) samples o result := by
    apply yields_execute
    case hrefused =>
      rintro cause - o ⟨⟩ hstatus
      cases hstatus
    case hbroken =>
      intro p _ o ho
      cases ho
    case hran =>
      intro run workload hrun hfactory
      refine (TimeBound.yields_execute_timed (succeeds_work hrun)).mono ?_
      rintro r v ⟨r', u, hsucceeded, ⟨hreports, htimed⟩, hleaves⟩
      cases r with
      | error e =>
        intro o ho
        cases ho
      | ok answer =>
        rintro duration o ⟨⟩ hstatus
        obtain ⟨data, rfl, houtcome⟩ := finished_of_passed hstatus
        have htime := htimed.finished _ rfl
        have hconfig : (m.session token w run workload).run.config = m.config :=
          (Session.fresh_of_registry hrun rfl).2
        cases hreports
        obtain ⟨samples, t, hsamples, hdata, rfl⟩ := hsucceeded data rfl
        rw [houtcome, ← hdata]
        obtain ⟨result, hresult⟩ := vouched_of_succeeded hconfig hsamples htime hleaves
        exact ⟨run, workload, samples, result, hrun, hfactory, hresult⟩
  exact hyields.of_ok h o rfl hpassed

/-- A registry with a collector that always shows the same value. -/
def oneValue : Registry Instrument where
  constructors := .ofList
    [("value", .ok ⟨"value", 0, .playback { values := #[5], resumes := false }⟩)]

/-- A method that may stop early, and whose values are below their ceiling. -/
def early : Method Instrument where
  name := "early"
  config :=
    { executions := 5
      minEarlyStop := 2
      thresholds := .ofList [("value", 0.5)]
      ceilings := .ofList [("value", 8)] }
  collectors := ["value"]
  factory := .ok { body := { script := fun _ => .succeed } }

def oneToken : World (Event Instrument) where
  tokens := { cells := #[{}] }

/-- A method that stops early has passed. -/
theorem passed_is_sound_early : ∃ o v, early.execute oneValue ⟨0, []⟩ oneToken = .ok o v ∧
    o.status = .passed ∧ ∃ run workload samples result,
      Run.ofRegistry early.config oneValue early.collectors = .ok run ∧
        early.factory = .ok workload ∧
        early.Vouched oneToken v (early.session ⟨0, []⟩ oneToken run workload) samples o
          result := by
  obtain ⟨o, v, hexecute, hstatus, -⟩ : ∃ o v,
      early.execute oneValue ⟨0, []⟩ oneToken = .ok o v ∧ o.status = .passed ∧ v.clock = 10 :=
    eq_of_statusAt (by decide +kernel)
  exact ⟨o, v, hexecute, hstatus, passed_is_sound hexecute hstatus⟩

end Method

end Gauge
