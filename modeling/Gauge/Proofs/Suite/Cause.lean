import Gauge.Proofs.Suite.Execution

/-!
# Why a method was stopped

A method that does not come to its end was stopped by its own deadline, or somebody has cancelled its
token.  What it reports is reconstructed from the reason that its token has by then: work that was
stopped in time has timed out if the nearest reason is the one of a method, whoever has given it.

## Main definitions

* `World.Patient`, `Step.Patient` — a step that is left behind only when nobody waits any more.
* `Method.Sincere` — the hooks of a method hand on neither a timeout nor a cancellation.
* `Method.Ended` — how the work of a method has ended.
* `Method.Expired`, `Method.Stopped` — the deadline has passed first, or the work was cancelled first.

## Main statements

* `Run.patient_execute` — a run is left behind only when nobody waits for it any more.
* `Method.reported_of_reports` — what a method reports, from how its work has ended.
* `Method.status_tells_reason` — when a method is reported as timed out, and when as cancelled.
-/

namespace Gauge

/-- A step answers in one way. -/
theorem yields_self {ε σ α : Type} (x : EStateM ε σ α) (s : σ) :
    Yields x s fun r t => Yields x s fun r' t' => r' = r ∧ t' = t := by
  cases hx : x s with
  | ok a t | error e t => simp [Yields, hx]

/-! ## Work that is left behind -/

namespace World

variable {ε α : Type} {u v w : World ε} {token : Token}

/-- Between two worlds the horizon stays, and work that is left behind has reached it. -/
structure Waits (r : Except Halt α) (w v : World ε) : Prop where
  horizon : v.horizon = w.horizon
  reached : r = .error .abandoned → ∃ time, w.horizon = some time ∧ time ≤ v.clock

/-- A step in the world that is left behind only when nobody waits for it any more. -/
def Patient (x : Act ε α) : Prop := ∀ w, Yields x w fun r v => Waits r w v

/-- What has not been left behind leaves the horizon to what follows. -/
theorem Waits.trans {β : Type} {r : Except Halt α} {r' : Except Halt β} (h : Waits r w v)
    (h' : Waits r' v u) : Waits r' w u where
  horizon := h'.horizon.trans h.horizon
  reached he := by
    obtain ⟨time, htime, hle⟩ := h'.reached he
    exact ⟨time, h.horizon ▸ htime, hle⟩

theorem patient_goOn (time : World ε → Nat) : Patient (fun w => goOn (time w) w : Act ε Unit) := by
  intro w
  simp only [Yields, goOn]
  cases hhorizon : w.horizon with
  | none => exact ⟨(silent_passUntil w _).horizon, fun he => by cases he⟩
  | some horizon =>
    by_cases hlt : time w < horizon
    · simp only [if_pos hlt]
      exact ⟨(silent_passUntil w _).horizon, fun he => by cases he⟩
    · simp only [if_neg hlt]
      refine ⟨(silent_passUntil w _).horizon, fun _ => ⟨horizon, hhorizon, ?_⟩⟩
      simp [passUntil]

namespace Patient

theorem bind {x y : Act ε Unit} (hx : Patient x) (hy : Patient y) :
    Patient (x >>= fun _ => y) := by
  intro w
  rw [yields_bind]
  refine (hx w).mono fun r v hv => ?_
  cases r with
  | ok _ => exact (hy v).mono fun r u hu => hv.trans hu
  | error e => exact ⟨hv.horizon, fun he => hv.reached (by cases he; rfl)⟩

theorem tick : Patient (tick : Act ε Unit) := fun w =>
  Yields.congr ((patient_goOn (fun _ => w.clock + 1) { w with cpu := w.cpu + 1 }).mono
    fun _ _ h => ⟨h.horizon, h.reached⟩) rfl

theorem look : Patient
    (do if (← get).tokens.isCancelled token then fail .cancelled : Act ε Unit) := by
  intro w
  rw [yields_bind, yields_get]
  dsimp only
  split
  · exact ⟨rfl, fun he => by cases he⟩
  · exact ⟨rfl, fun he => by cases he⟩

theorem checkpoint : Patient (checkpoint token : Act ε Unit) := tick.bind look

theorem pause (nanos : Nat) : Patient (pause token nanos : Act ε Unit) := by
  refine checkpoint.bind fun w => ?_
  rw [yields_bind, yields_get]
  dsimp only
  split
  · exact (patient_goOn fun _ => _).bind look w
  · exact ⟨rfl, fun he => by cases he⟩

theorem perform (a : Action) : Patient (a.perform token : Act ε Unit) := by
  induction a with
  | succeed | fail | panic | cancel | allocate => exact fun w => ⟨rfl, fun he => by cases he⟩
  | sleep nanos => exact patient_goOn fun w => w.clock + nanos
  | pause nanos => exact pause nanos
  | andThen first second ihFirst ihSecond => exact ihFirst.bind ihSecond

end Patient

end World

namespace Step

variable {κ α β : Type} {token : Token}

/-- A step of a session that is left behind only when nobody waits for it any more. -/
def Patient (x : Step κ α) : Prop := ∀ s, Yields x s fun r t => World.Waits r s.world t.world

theorem Patient.bind {x : Step κ α} {f : α → Step κ β} (hx : Patient x)
    (hf : ∀ a, Patient (f a)) : Patient (x >>= f) := by
  intro s
  rw [yields_bind]
  refine (hx s).mono fun r t ht => ?_
  cases r with
  | ok a => exact (hf a t).mono fun r u hu => ht.trans hu
  | error e => exact ⟨ht.horizon, fun he => ht.reached (by cases he; rfl)⟩

theorem patient_quiet {x : Step κ α} (h : ∀ s, Yields x s fun r t =>
    t.world.horizon = s.world.horizon ∧ r ≠ .error .abandoned) : Patient x := by
  intro s
  exact (h s).mono fun r t ht => ⟨ht.1, fun he => absurd he ht.2⟩

theorem patient_inWorld {x : Act (Event κ) α} (hx : World.Patient x) : Patient (inWorld x) :=
  fun s => (yields_inWorld x).2 (hx s.world)

/-- Neither settling a step nor calling it in a hook leaves it behind. -/
theorem eq_of_settled_abandoned {r : Except Halt α} (h : settled r = .error .abandoned) :
    r = .error .abandoned := by
  cases r with
  | ok a => cases h
  | error e =>
    cases e with
    | failure f => cases h
    | panic p => cases h
    | abandoned => rfl

theorem eq_of_inHook_abandoned {r : Except Halt α} (h : inHook r = .error .abandoned) :
    r = .error .abandoned := by
  cases r with
  | ok a => cases h
  | error e =>
    cases e with
    | failure f => cases h
    | panic p => cases h
    | abandoned => rfl

theorem composes_patient : Composes (κ := κ) fun _ x => Patient x where
  pure a := patient_quiet fun s => ⟨rfl, fun he => by cases he⟩
  fail f := patient_quiet fun s => ⟨rfl, fun he => by cases he⟩
  theRun := patient_quiet fun s => ⟨rfl, fun he => by cases he⟩
  bind := Patient.bind
  settle hx s := (yields_settle _).2 ((hx s).mono fun _ _ ht =>
    ⟨ht.horizon, fun he => ht.reached (eq_of_settled_abandoned he)⟩)

theorem patient_log (event : Event κ) : Patient (inWorld (World.log event) : Step κ Unit) :=
  patient_quiet fun s => ⟨rfl, fun he => by cases he⟩

theorem patient_callHook (stage : Stage) : Patient (callHook token stage : Step κ Unit) := by
  refine Patient.bind (patient_quiet fun s => ⟨rfl, fun he => by cases he⟩) fun s => ?_
  cases s.work.next? stage with
  | none => exact composes_patient.pure ()
  | some called =>
    refine Patient.bind (patient_quiet fun s => ⟨rfl, fun he => by cases he⟩) fun _ =>
      (patient_log _).bind fun _ => fun s => ?_
    rw [yields_guarded]
    exact (patient_inWorld (World.Patient.tick.bind (.perform called.1)) s).mono fun _ _ ht =>
      ⟨ht.horizon, fun he => ht.reached (eq_of_inHook_abandoned he)⟩

end Step

namespace Run

open Step

variable {κ : Type} [Device κ] {token : Token}

theorem patient_callCollector (call : Call) (i : Nat) :
    Patient (callCollector call i : Step κ Unit) := by
  refine composes_patient.bind composes_patient.theRun fun r => ?_
  cases r.collectors[i]? with
  | none => exact composes_patient.pure ()
  | some c =>
    refine (patient_log _).bind fun _ => (patient_inWorld World.Patient.tick).bind fun _ => ?_
    refine Patient.bind (patient_quiet fun s => ⟨rfl, fun he => by cases he⟩) fun s => ?_
    cases call.apply c.device s.world.readings with
    | ok device => exact patient_quiet fun s => ⟨rfl, fun he => by cases he⟩
    | error p => exact patient_quiet fun s => ⟨rfl, fun he => by cases he⟩

/-- **A run is left behind only when nobody waits for it any more.** -/
theorem patient_execute : Patient (execute token : Step κ Unit) := by
  have hcalls (call : Call) (order : List Nat) :
      Patient (callCollectors call order : Step κ Unit) := by
    induction order with
    | nil => exact composes_patient.pure ()
    | cons i order ih => exact (patient_callCollector call i).bind fun _ => ih
  exact (composes_patient.run (patient_quiet fun s => ⟨rfl, fun he => by cases he⟩)
    (fun f => patient_quiet fun s => ⟨rfl, fun he => by cases he⟩) hcalls
    (patient_inWorld World.Patient.checkpoint) patient_callHook).execute

end Run

/-! ## How work has ended -/

namespace Failure

/-- A failure that a run has of its own is reported neither as a timeout nor as a cancellation. -/
theorem Own.status {f : Failure} (h : f.Own) :
    MethodStatus.ofFailure f ≠ .cancelled ∧
      ∀ scope, MethodStatus.ofFailure f ≠ .timedOut scope := by
  cases f with
  | timeout | cancelled => exact absurd h id
  | workload | assertion | misconfigured | notFinalized | «sealed» | store =>
    exact ⟨fun he => (by cases he), fun scope he => by cases he⟩

end Failure

namespace Method

variable {κ : Type} [Device κ] {m : Method κ} {registry : Registry κ} {token : Token}
  {w v u : World (Event κ)}

omit [Device κ] in
/-- The hooks of a method hand on neither a timeout nor a cancellation.  Hooks that fail with errors
of their own are of this kind. -/
def Sincere (m : Method κ) : Prop :=
  ∀ work, m.factory = .ok work → work.All (Action.Admitted (fun _ => True) Failure.Own)

/-- The work of a method that begins in a world has ended, with an answer or without, in another
world. -/
def Ended (m : Method κ) (registry : Registry κ) (token : Token) (w : World (Event κ))
    (r : Except Halt (Except Failure Unit × Run κ × Workload)) (u : World (Event κ)) : Prop :=
  ∃ run workload, Run.ofRegistry m.config registry m.collectors = .ok run ∧
    m.factory = .ok workload ∧
    Yields (work token run workload) (m.bound.begun token w) fun r' u' => r' = r ∧ u' = u

/-- The deadline of a method has passed before its work has ended; work that breaks off has failed
all the same. -/
def Expired (m : Method κ) (w u : World (Event κ))
    (r : Except Halt (Except Failure Unit × Run κ × Workload)) : Prop :=
  w.clock + m.config.timeout.nanos ≤ u.clock ∧ ∀ p, r ≠ .error (.panic p)

/-- The work of a method has answered before the deadline that it was cancelled, as somebody else
has cancelled its token. -/
def Stopped (m : Method κ) (token : Token) (w u : World (Event κ))
    (r : Except Halt (Except Failure Unit × Run κ × Workload)) : Prop :=
  u.clock < w.clock + m.config.timeout.nanos ∧ u.tokens.isCancelled token ∧
    ∃ data, r = .ok (.error .cancelled, data)

/-- Work ends in one way. -/
theorem Ended.unique {r r' : Except Halt (Except Failure Unit × Run κ × Workload)}
    {u u' : World (Event κ)} (h : m.Ended registry token w r u)
    (h' : m.Ended registry token w r' u') : r = r' ∧ u = u' := by
  obtain ⟨run, workload, hrun, hworkload, hended⟩ := h
  obtain ⟨run', workload', hrun', hworkload', hended'⟩ := h'
  rw [hrun] at hrun'
  rw [hworkload] at hworkload'
  cases hrun'
  cases hworkload'
  have hboth := hended.and hended'
  rw [Yields] at hboth
  cases hx : work token run workload (m.bound.begun token w) with
  | ok a t | error e t =>
    rw [hx] at hboth
    obtain ⟨⟨rfl, rfl⟩, rfl, rfl⟩ := hboth
    exact ⟨rfl, rfl⟩

theorem patient_work (run : Run κ) (workload : Workload) :
    World.Patient (work token run workload) := by
  intro w
  have hsettled : Step.Patient (settle (Run.execute token) : Step κ (Except Failure Unit)) :=
    Step.composes_patient.settle Run.patient_execute
  refine Session.yields_during ((hsettled ⟨w, workload, run⟩).mono fun r t ht => ?_)
  refine ⟨ht.horizon, fun he => ht.reached ?_⟩
  cases r with
  | ok a => cases he
  | error e => exact congrArg Except.error (Except.error.inj he)

omit [Device κ] in
/-- Work that was left behind was so after the deadline, if somebody waits for the report. -/
theorem deadline_le_of_left {r : Except Failure (Bounded (Except Failure Unit × Run κ × Workload))}
    (hwaits : World.Waits (.error .abandoned : Except Halt (Except Failure Unit × Run κ × Workload))
      (m.bound.begun token w) u)
    (htimed : m.bound.Timed w u (.ok r)) (hr : r = .ok (.timedOut none)) :
    w.clock + m.config.timeout.nanos ≤ u.clock := by
  obtain ⟨time, htime, hle⟩ := hwaits.reached rfl
  have hsooner : TimeBound.sooner w.horizon
      (w.clock + m.config.timeout.nanos + defaultGrace.nanos) = time := Option.some.inj htime
  cases hhorizon : w.horizon with
  | none =>
    simp only [hhorizon, TimeBound.sooner] at hsooner
    omega
  | some outer =>
    have hlt := htimed.never (congrArg Except.ok hr) outer hhorizon
    simp only [hhorizon, TimeBound.sooner] at hsooner
    omega

/-- What a method reports of work that has ended. -/
structure Reported (m : Method κ) (token : Token) (w u : World (Event κ))
    (r : Except Halt (Except Failure Unit × Run κ × Workload)) (status : MethodStatus) : Prop where
  timedOut : status = .timedOut .method ↔
    m.Expired w u r ∧ u.tokens.reason? token ≠ some .suite ∨
      m.Stopped token w u r ∧ u.tokens.reason? token = some .method
  cancelled : status = .cancelled ↔
    m.Expired w u r ∧ u.tokens.reason? token = some .suite ∨
      m.Stopped token w u r ∧ u.tokens.reason? token ≠ some .method
  /-- only a suite reports its own timeout -/
  suite : status ≠ .timedOut .suite

section Reported

variable {r : Except Halt (Except Failure Unit × Run κ × Workload)} {status : MethodStatus}

omit [Device κ] in
/-- Work that has neither expired nor was stopped is reported as neither. -/
theorem reported_of_neither (hexpired : ¬ m.Expired w u r) (hstopped : ¬ m.Stopped token w u r)
    (htimedOut : ∀ scope, status ≠ .timedOut scope) (hcancelled : status ≠ .cancelled) :
    m.Reported token w u r status := by
  constructor
  · simp [hexpired, hstopped, htimedOut]
  · simp [hexpired, hstopped, hcancelled]
  · exact htimedOut .suite

omit [Device κ] in
/-- A deadline that has passed is a timeout, unless the suite had cancelled the method. -/
theorem reported_of_expired (hexpired : m.Expired w u r)
    (hstatus : status = if u.tokens.reason? token = some .suite then .cancelled
      else .timedOut .method) : m.Reported token w u r status := by
  have hstopped : ¬ m.Stopped token w u r := by
    intro hstopped
    have := hstopped.1
    have := hexpired.1
    omega
  by_cases hreason : u.tokens.reason? token = some .suite
  · rw [if_pos hreason] at hstatus
    constructor <;> simp [hstatus, hexpired, hstopped, hreason]
  · rw [if_neg hreason] at hstatus
    constructor <;> simp [hstatus, hexpired, hstopped, hreason]

omit [Device κ] in
/-- Work that was stopped is reported with the reason of its token. -/
theorem reported_of_stopped (hstopped : m.Stopped token w u r)
    (hstatus : status = if u.tokens.reason? token = some .method then .timedOut .method
      else .cancelled) : m.Reported token w u r status := by
  have hexpired : ¬ m.Expired w u r := by
    intro hexpired
    have := hstopped.1
    have := hexpired.1
    omega
  by_cases hreason : u.tokens.reason? token = some .method
  · rw [if_pos hreason] at hstatus
    constructor <;> simp [hstatus, hexpired, hstopped, hreason]
  · rw [if_neg hreason] at hstatus
    constructor <;> simp [hstatus, hexpired, hstopped, hreason]

end Reported

omit [Device κ] in
/-- Work that answers in time is reported with its answer, and with the reason of its token if it
was stopped. -/
theorem reported_inTime {ending : Except Failure Unit} {data : Run κ × Workload}
    {duration : Duration} (htime : u.clock < w.clock + m.config.timeout.nanos)
    (hexplained : ∀ f, ending = .error f → f.Explained Failure.Own token u.tokens) :
    m.Reported token w u (.ok (ending, data))
      (m.outcome token (.ok (.finished (ending, data))) u.tokens duration).status := by
  have hexpired : ¬ m.Expired w u (.ok (ending, data)) := by
    intro hexpired
    have := hexpired.1
    omega
  have hanswer (h : m.Stopped token w u (.ok (ending, data))) : ending = .error .cancelled := by
    obtain ⟨-, -, other, hother⟩ := h
    exact congrArg Prod.fst (Except.ok.inj hother)
  cases ending with
  | ok _ =>
    refine reported_of_neither hexpired (fun hstopped => ?_) (fun scope he => ?_) fun he => ?_
    · cases hanswer hstopped
    · cases he
    · cases he
  | error f =>
    obtain hown | ⟨rfl, hcancelled⟩ := hexplained f rfl
    · have hne : f ≠ .cancelled := by
        rintro rfl
        exact hown
      have hstatus : (m.outcome token (.ok (.finished (.error f, data))) u.tokens duration).status =
          .ofFailure f := by
        cases f with
        | cancelled => exact absurd rfl hne
        | timeout => exact absurd hown id
        | workload | assertion | misconfigured | notFinalized | «sealed» | store => rfl
      rw [hstatus]
      refine reported_of_neither hexpired (fun hstopped => hne ?_) hown.status.2 hown.status.1
      exact Except.error.inj (hanswer hstopped)
    · refine reported_of_stopped ⟨htime, hcancelled, data, rfl⟩ ?_
      by_cases hreason : u.tokens.reason? token = some .method
      · simp [outcome, verdict, attributed, hreason, MethodOutcome.ofEnding, bound,
          TimeBound.timeoutFailure, MethodStatus.ofFailure]
      · simp [outcome, verdict, attributed, hreason, MethodOutcome.ofEnding,
          MethodStatus.ofFailure]

omit [Device κ] in
/-- Work that has no answer in time is reported as timed out, unless the suite has cancelled it. -/
theorem status_late {late : Option (Except Failure Unit × Run κ × Workload)} {tokens : Tokens}
    {duration : Duration} : (m.outcome token (.ok (.timedOut late)) tokens duration).status =
      if tokens.reason? token = some .suite then .cancelled else .timedOut .method := by
  by_cases hreason : tokens.reason? token = some .suite
  · simp [outcome, verdict, attributed, hreason, MethodOutcome.ofEnding, MethodStatus.ofFailure]
  · simp [outcome, verdict, attributed, hreason, MethodOutcome.ofEnding, bound,
      TimeBound.timeoutFailure, MethodStatus.ofFailure]

omit [Device κ] in
/-- **What a method reports**, from how its work has ended. -/
theorem reported_of_reports {r : Except Halt (Except Failure Unit × Run κ × Workload)}
    {answer : Except Failure (Bounded (Except Failure Unit × Run κ × Workload))}
    {duration : Duration} (hreports : TimeBound.Reports w.horizon r (.ok answer))
    (htimed : m.bound.Timed w u (.ok answer)) (hfailed : ∀ f, r ≠ .error (.failure f))
    (hexplained : ∀ f data, r = .ok (.error f, data) → f.Explained Failure.Own token u.tokens)
    (hwaits : World.Waits r (m.bound.begun token w) u) :
    m.Reported token w u r (m.outcome token answer u.tokens duration).status := by
  cases hreports with
  | finished value =>
    obtain ⟨ending, data⟩ := value
    exact reported_inTime (htimed.finished _ rfl) fun f hf => hexplained f data (by rw [hf])
  | late value =>
    exact reported_of_expired ⟨htimed.late _ rfl, fun p hp => by cases hp⟩ status_late
  | panicked p =>
    refine reported_of_neither (fun hexpired => hexpired.2 p rfl) (fun hstopped => ?_)
      (fun scope he => ?_) fun he => ?_
    · obtain ⟨-, -, data, hdata⟩ := hstopped
      cases hdata
    · cases he
    · cases he
  | failed f => exact absurd rfl (hfailed f)
  | never =>
    refine reported_of_expired ⟨deadline_le_of_left hwaits htimed rfl, fun p hp => ?_⟩ status_late
    cases hp

/-- A method is refused as misconfigured, or its outcome reports how its work has ended, with the
tokens as the work has left them. -/
theorem yields_reported_left (hsincere : m.Sincere) :
    Yields (m.execute registry token) w fun r v => ∀ o, r = .ok o →
      (o.status = .misconfigured ∧ ∀ r u, ¬ m.Ended registry token w r u) ∨
        ∃ r u, m.Ended registry token w r u ∧ v.tokens = u.tokens ∧
          m.Reported token w u r o.status := by
  refine yields_execute (fun cause hcause o ho => ?_) (fun p _ o ho => ?_)
    fun run workload hrun hfactory => ?_
  · cases ho
    refine .inl ⟨rfl, ?_⟩
    rintro r u ⟨run, workload, hrun, -⟩
    rw [hcause] at hrun
    cases hrun
  · cases ho
  · have hkind (f : Failure) (hf : f.Own) : f.Own := hf
    have hwork := (yields_self (work token run workload) (m.bound.begun token w)).and
      ((unfailing_work run workload _).and
        ((explains_work hkind (hsincere workload hfactory) _).and (patient_work run workload _)))
    refine (TimeBound.yields_execute_timed hwork).mono ?_
    rintro r v ⟨r', u, ⟨hended, hfailed, hexplained, hwaits⟩, ⟨hreports, htimed⟩, hleaves⟩
    cases r with
    | error e =>
      intro o ho
      cases ho
    | ok answer =>
      rintro duration o ⟨⟩
      refine .inr ⟨r', u, ⟨run, workload, hrun, hfactory, hended⟩, hleaves.tokens, ?_⟩
      rw [hleaves.tokens]
      exact reported_of_reports hreports htimed hfailed hexplained hwaits

theorem yields_reported (hsincere : m.Sincere) :
    Yields (m.execute registry token) w fun r _ => ∀ o, r = .ok o →
      (o.status = .misconfigured ∧ ∀ r u, ¬ m.Ended registry token w r u) ∨
        ∃ r u, m.Ended registry token w r u ∧ m.Reported token w u r o.status := by
  refine (yields_reported_left hsincere).mono fun r v h o ho => (h o ho).imp_right ?_
  rintro ⟨r', u, hended, -, hreported⟩
  exact ⟨r', u, hended, hreported⟩

/-- **When a method is reported as timed out, and when as cancelled.**  It has timed out if its
deadline has passed before its work has ended, unless the nearest reason of its token is the suite by
then; it has also timed out if its work was stopped before the deadline and the nearest reason is a
method, although somebody else has cancelled the token.  It was cancelled if its work was stopped
before the deadline for any other reason, or if the deadline has passed for a token that was
cancelled for the suite. -/
theorem status_tells_reason {o : MethodOutcome} (hsincere : m.Sincere)
    (h : m.execute registry token w = .ok o v) :
    (o.status = .timedOut .method ↔ ∃ r u, m.Ended registry token w r u ∧
      (m.Expired w u r ∧ u.tokens.reason? token ≠ some .suite ∨
        m.Stopped token w u r ∧ u.tokens.reason? token = some .method)) ∧
    (o.status = .cancelled ↔ ∃ r u, m.Ended registry token w r u ∧
      (m.Expired w u r ∧ u.tokens.reason? token = some .suite ∨
        m.Stopped token w u r ∧ u.tokens.reason? token ≠ some .method)) := by
  have hends := (yields_reported hsincere).of_ok h o rfl
  rcases hends with ⟨hstatus, hnone⟩ | ⟨r, u, hended, hreported⟩
  · constructor
    · constructor
      · intro he
        rw [hstatus] at he
        cases he
      · rintro ⟨r, u, hended, -⟩
        exact absurd hended (hnone r u)
    · constructor
      · intro he
        rw [hstatus] at he
        cases he
      · rintro ⟨r, u, hended, -⟩
        exact absurd hended (hnone r u)
  · constructor
    · rw [hreported.timedOut]
      constructor
      · intro hcause
        exact ⟨r, u, hended, hcause⟩
      · rintro ⟨r', u', hended', hcause⟩
        obtain ⟨rfl, rfl⟩ := hended.unique hended'
        exact hcause
    · rw [hreported.cancelled]
      constructor
      · intro hcause
        exact ⟨r, u, hended, hcause⟩
      · rintro ⟨r', u', hended', hcause⟩
        obtain ⟨rfl, rfl⟩ := hended.unique hended'
        exact hcause

/-- A method never reports the timeout of its suite. -/
theorem status_ne_suiteTimeout {o : MethodOutcome} (hsincere : m.Sincere)
    (h : m.execute registry token w = .ok o v) : o.status ≠ .timedOut .suite := by
  rcases (yields_reported hsincere).of_ok h o rfl with ⟨hstatus, -⟩ | ⟨r, u, -, hreported⟩
  · rw [hstatus]
    exact fun he => by cases he
  · exact hreported.suite

theorem sincere_restful (name : String) : (Suite.restful name).Sincere := by
  rintro work hwork stage hook hhook k
  cases hwork
  cases stage with
  | before | after => cases hhook
  | body =>
    cases hhook
    trivial

/-- A world whose only token somebody has cancelled with the reason of a method. -/
def cancelledForMethod : World (Event Instrument) :=
  { tokens := { cells := #[{ raised := true, reason := some .method }] } }

/-- The status that a method reports, and the time at which it does. -/
def statusAt : EStateM.Result Halt (World (Event Instrument)) MethodOutcome →
    Option (MethodStatus × Nat)
  | .ok o v => some (o.status, v.clock)
  | .error _ _ => none

theorem eq_of_statusAt {x : EStateM.Result Halt (World (Event Instrument)) MethodOutcome}
    {status : MethodStatus} {time : Nat} (h : statusAt x = some (status, time)) :
    ∃ o v, x = .ok o v ∧ o.status = status ∧ v.clock = time := by
  unfold statusAt at h
  split at h
  · rename_i o v
    obtain ⟨hstatus, hclock⟩ := Prod.mk.inj (Option.some.inj h)
    exact ⟨o, v, rfl, hstatus, hclock⟩
  · cases h

/-- Under a token that is cancelled from the start a method reports a timeout at once. -/
theorem execute_cancelledForMethod : ∃ o v,
    (Suite.restful "idle").execute .builtins ⟨0, []⟩ cancelledForMethod = .ok o v ∧
      o.status = .timedOut .method ∧ v.clock = 1 :=
  eq_of_statusAt (by decide +kernel)

/-- The timeout that is reported at once was not that of an expired deadline: the work was stopped,
and its token names a method. -/
theorem status_tells_reason_stoppedAtOnce : ∃ o v r u,
    (Suite.restful "idle").execute .builtins ⟨0, []⟩ cancelledForMethod = .ok o v ∧
      o.status = .timedOut .method ∧
      (Suite.restful "idle").Ended .builtins ⟨0, []⟩ cancelledForMethod r u ∧
      ((Suite.restful "idle").Expired cancelledForMethod u r ∧
          u.tokens.reason? ⟨0, []⟩ ≠ some .suite ∨
        (Suite.restful "idle").Stopped ⟨0, []⟩ cancelledForMethod u r ∧
          u.tokens.reason? ⟨0, []⟩ = some .method) := by
  obtain ⟨o, v, hexecute, hstatus, -⟩ := execute_cancelledForMethod
  obtain ⟨r, u, hended, hcause⟩ :=
    (status_tells_reason (sincere_restful "idle") hexecute).1.1 hstatus
  exact ⟨o, v, r, u, hexecute, hstatus, hended, hcause⟩

/-- A timeout is reported although the deadline has not expired, and a run that ends because its
token was cancelled before the deadline is not reported as cancelled. -/
theorem not_status_tells_deadline :
    (Suite.restful "idle").Sincere ∧ cancelledForMethod.tokens.isCancelled ⟨0, []⟩ ∧
      ∃ o v, (Suite.restful "idle").execute .builtins ⟨0, []⟩ cancelledForMethod = .ok o v ∧
        v.clock < cancelledForMethod.clock + (Suite.restful "idle").config.timeout.nanos ∧
        o.status = .timedOut .method ∧ o.status ≠ .cancelled := by
  obtain ⟨o, v, hexecute, hstatus, hclock⟩ := execute_cancelledForMethod
  refine ⟨sincere_restful "idle", by decide, o, v, hexecute, ?_, hstatus, ?_⟩
  · rw [hclock]
    decide
  · rw [hstatus]
    decide

end Method

end Gauge
