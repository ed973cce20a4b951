import Gauge.Proofs.Suite.Cause
import Gauge.Proofs.Token.Exact

/-!
# The worker and the controller of a deadline

Work under a deadline runs on a thread of its own.  The worker does the work and hands over what it
has ended with, once, through a channel with room for one answer.  The controller waits for that
until the deadline, then cancels the token of the work, and waits for the grace period.  Between any
two moves of the one thread the other one can make its own, and so can all other threads that hold
tokens; both waits can end at any time at which the channel is empty.

## Main definitions

* `TimeBound.Exchange α` — the state that the two threads share, with what has happened so far.
* `TimeBound.Moves` — one move of one party.
* `TimeBound.Schedule` — the moves from the beginning of an exchange to a state of it.
* `TimeBound.Faithful` — an answer is neither lost nor invented nor mislabelled.

## Main statements

* `TimeBound.Moves.consistent` — what every move keeps.
* `TimeBound.Schedule.countP_le` — the two threads make at most six moves.
-/

namespace Gauge

namespace TimeBound

/-! ## States -/

inductive Worker (α : Type) where
  | working
  | sending (answer : Except Panic α)
  | gone

inductive Controller (α : Type) where
  | waiting
  /-- the deadline has passed -/
  | expired
  /-- the token has a reason -/
  | recorded
  | inGrace
  | left (report : Except Failure (Bounded α))

/-- The controller still receives. -/
def Controller.There {α : Type} : Controller α → Prop
  | left _ => False
  | _ => True

/-- Who makes a move. -/
inductive Party where
  | worker
  | controller
  | clock
  /-- other threads that hold tokens -/
  | others
  deriving DecidableEq

/-- How far the work and the wait for it have come. -/
structure Exchange (α : Type) where
  forest : Forest
  worker : Worker α := .working
  /-- what was sent and not received -/
  channel : Option (Except Panic α) := none
  controller : Controller α := .waiting
  /-- what the work has ended with -/
  ended : Option (Except Panic α) := none
  /-- what was sent while the controller was there -/
  sent : Option (Except Panic α) := none
  /-- the reason that the controller found on the token when it cancelled that -/
  found : Option (Option Scope) := none

variable {ε α : Type}

/-- Work ends with an answer, in some world. -/
def EndsWith (work : Act ε α) : Except Panic α → Prop
  | .ok value => ∃ w v, work w = .ok value v
  | .error p => ∃ w v, work w = .error (.panic p) v

/-! ## Moves -/

/-- **One move** of one party. -/
inductive Moves (b : TimeBound) (token : Token) (work : Act ε α) (st : Exchange α) :
    Party → Exchange α → Prop
  -- the worker; a panic is caught
  | finish {answer : Except Panic α} (hworker : st.worker = .working)
      (hends : EndsWith work answer) :
      Moves b token work st .worker { st with worker := .sending answer, ended := some answer }
  | send {answer : Except Panic α} (hworker : st.worker = .sending answer)
      (hroom : st.channel = none) (hthere : st.controller.There) :
      Moves b token work st .worker
        { st with worker := .gone, channel := some answer, sent := some answer }
  -- nobody receives any more, whether the channel is closed yet or not
  | hangUp {answer : Except Panic α} (hworker : st.worker = .sending answer)
      (hleft : ¬ st.controller.There) :
      Moves b token work st .worker { st with worker := .gone }
  -- the controller until the deadline
  | receive {answer : Except Panic α} (hcontroller : st.controller = .waiting)
      (hchannel : st.channel = some answer) :
      Moves b token work st .controller
        { st with channel := none, controller := .left (conclude (.inTime answer)) }
  | disconnect (hcontroller : st.controller = .waiting) (hchannel : st.channel = none)
      (hworker : st.worker = .gone) :
      Moves b token work st .controller
        { st with
          controller := .left (.error (.workload ["worker thread exited without a result"])) }
  | expire (hcontroller : st.controller = .waiting) (hchannel : st.channel = none) :
      Moves b token work st .clock { st with controller := .expired }
  -- the controller after the deadline: it cancels the token in two steps, and waits again
  | record (hcontroller : st.controller = .expired) :
      Moves b token work st .controller
        { st with
          controller := .recorded
          forest := st.forest.record token b.scope
          found := some (st.forest.tokens.cell token.cell).reason }
  | raise (hcontroller : st.controller = .recorded) :
      Moves b token work st .controller
        { st with controller := .inGrace, forest := st.forest.raise token }
  | late {answer : Except Panic α} (hcontroller : st.controller = .inGrace)
      (hchannel : st.channel = some answer) :
      Moves b token work st .controller
        { st with channel := none, controller := .left (conclude (.inGrace answer)) }
  | graceOver (hcontroller : st.controller = .inGrace) (hchannel : st.channel = none) :
      Moves b token work st .clock { st with controller := .left (conclude .never) }
  | graceLost (hcontroller : st.controller = .inGrace) (hchannel : st.channel = none)
      (hworker : st.worker = .gone) :
      Moves b token work st .controller { st with controller := .left (conclude .never) }
  -- other threads, and the work itself, make tokens and cancel them; the second step of the
  -- controller is its own
  | other {forest : Forest} (hmoves : st.forest.Moves forest)
      (hpending : st.controller = .recorded → token ∈ forest.pending) :
      Moves b token work st .others { st with forest := forest }

/-- A schedule of an exchange: whose moves lead from its beginning, among the tokens that there are,
to a state of it. -/
inductive Schedule (b : TimeBound) (token : Token) (work : Act ε α) (forest : Forest) :
    List Party → Exchange α → Prop
  | begin : Schedule b token work forest [] { forest := forest }
  | move {parties : List Party} {party : Party} {st st' : Exchange α}
      (h : Schedule b token work forest parties st) (hmoves : b.Moves token work st party st') :
      Schedule b token work forest (parties ++ [party]) st'

variable {b : TimeBound} {token : Token} {work : Act ε α} {forest : Forest} {party : Party}
  {parties : List Party} {st st' : Exchange α}

/-! ## What every move keeps -/

/-- The controller has recorded its scope on the token, unless it found a reason there. -/
def Recorded (b : TimeBound) (token : Token) (f : Forest) (found : Option (Option Scope)) : Prop :=
  ∃ reason, found = some reason ∧ (f.tokens.cell token.cell).reason = reason.or (some b.scope)

/-- The controller has cancelled the token. -/
structure Cancelled (b : TimeBound) (token : Token) (f : Forest)
    (found : Option (Option Scope)) : Prop where
  recorded : b.Recorded token f found
  raised : (f.tokens.cell token.cell).raised

/-- When what was sent has arrived. -/
def Arrived (b : TimeBound) (token : Token) (f : Forest) (found : Option (Option Scope))
    (sent : Option (Except Panic α)) : Arrival (Except Panic α) → Prop
  | .inTime answer => sent = some answer ∧ found = none
  | .inGrace answer => sent = some answer ∧ b.Cancelled token f found
  | .never => sent = none ∧ b.Cancelled token f found

/-- What the controller has done so far, by where it is. -/
def Watched (b : TimeBound) (token : Token) (f : Forest) (found : Option (Option Scope))
    (sent : Option (Except Panic α)) : Controller α → Prop
  | .waiting | .expired => found = none
  | .recorded => b.Recorded token f found ∧ token ∈ f.pending
  | .inGrace => b.Cancelled token f found
  | .left report => ∃ arrival, report = conclude arrival ∧ b.Arrived token f found sent arrival

/-- The parts of an exchange are consistent with each other. -/
structure Consistent (b : TimeBound) (token : Token) (work : Act ε α) (forest : Forest)
    (st : Exchange α) : Prop where
  leads : forest.Leads st.forest
  ends : ∀ answer, st.ended = some answer → EndsWith work answer
  working : st.worker = .working → st.ended = none
  sending : ∀ answer, st.worker = .sending answer → st.ended = some answer ∧ st.sent = none
  gone : st.worker = .gone → st.sent = none → ¬ st.controller.There
  sent : ∀ answer, st.sent = some answer → st.ended = some answer
  /-- what was sent is there until the controller leaves -/
  channel : st.controller.There → st.channel = st.sent
  watched : b.Watched token st.forest st.found st.sent st.controller

theorem consistent_begin : b.Consistent token work forest { forest := forest } where
  leads := .refl
  ends _ he := by cases he
  working _ := rfl
  sending _ he := by cases he
  gone he := by cases he
  sent _ he := by cases he
  channel _ := rfl
  watched := rfl

/-- The token stays as the controller has left it, whatever other threads do. -/
theorem Recorded.leads {f g : Forest} {found : Option (Option Scope)}
    (h : b.Recorded token f found) (hsound : f.Sound) (ht : token ∈ f.handles)
    (hleads : f.Leads g) : b.Recorded token g found := by
  obtain ⟨reason, hfound, hreason⟩ := h
  refine ⟨reason, hfound, ?_⟩
  cases reason with
  | none => exact hsound.reason_leads hleads ht hreason
  | some scope => exact hsound.reason_leads hleads ht hreason

theorem Cancelled.leads {f g : Forest} {found : Option (Option Scope)}
    (h : b.Cancelled token f found) (hsound : f.Sound) (ht : token ∈ f.handles)
    (hleads : f.Leads g) : b.Cancelled token g found :=
  ⟨h.recorded.leads hsound ht hleads, hsound.raised_leads hleads ht h.raised⟩

theorem Arrived.leads {f g : Forest} {found : Option (Option Scope)}
    {sent : Option (Except Panic α)} {arrival : Arrival (Except Panic α)}
    (h : b.Arrived token f found sent arrival) (hsound : f.Sound) (ht : token ∈ f.handles)
    (hleads : f.Leads g) : b.Arrived token g found sent arrival := by
  cases arrival with
  | inTime answer => exact h
  | inGrace answer => exact ⟨h.1, h.2.leads hsound ht hleads⟩
  | never => exact ⟨h.1, h.2.leads hsound ht hleads⟩

/-- Nor do they undo what the controller has done, as long as its second step is left to it. -/
theorem Watched.leads {f g : Forest} {found : Option (Option Scope)}
    {sent : Option (Except Panic α)} {c : Controller α} (h : b.Watched token f found sent c)
    (hsound : f.Sound) (ht : token ∈ f.handles) (hleads : f.Leads g)
    (hpending : c = .recorded → token ∈ g.pending) : b.Watched token g found sent c := by
  cases c with
  | waiting | expired => exact h
  | recorded => exact ⟨h.1.leads hsound ht hleads, hpending rfl⟩
  | inGrace => exact Cancelled.leads h hsound ht hleads
  | left report =>
    obtain ⟨arrival, hreport, harrived⟩ := h
    exact ⟨arrival, hreport, harrived.leads hsound ht hleads⟩

/-- What the controller has done does not depend on what is sent while it is there. -/
theorem Watched.send {f : Forest} {found : Option (Option Scope)} {sent : Option (Except Panic α)}
    {c : Controller α} (h : b.Watched token f found sent c) (hthere : c.There)
    (sent' : Option (Except Panic α)) : b.Watched token f found sent' c := by
  cases c with
  | left report => exact absurd hthere id
  | waiting | expired | recorded | inGrace => exact h

/-- The controller stays, in another place. -/
theorem Consistent.stay (h : b.Consistent token work forest st) (hthere : st.controller.There)
    {c : Controller α} {f : Forest} {found : Option (Option Scope)}
    (hleads : forest.Leads f) (hwatched : b.Watched token f found st.sent c) :
    b.Consistent token work forest { st with controller := c, forest := f, found := found } :=
  { h with
    leads := hleads
    gone := fun hworker hsent => absurd hthere (h.gone hworker hsent)
    channel := fun _ => h.channel hthere
    watched := hwatched }

/-- The controller leaves with a report. -/
theorem Consistent.leave (h : b.Consistent token work forest st) {channel : Option (Except Panic α)}
    {report : Except Failure (Bounded α)}
    (hwatched : b.Watched token st.forest st.found st.sent (.left report)) :
    b.Consistent token work forest { st with channel := channel, controller := .left report } :=
  { h with
    gone := fun _ _ => id
    channel := fun hthere => absurd hthere id
    watched := hwatched }

/-- While the controller is there, what was sent is what is in the channel. -/
theorem Consistent.sent_eq (h : b.Consistent token work forest st) (hthere : st.controller.There)
    {channel : Option (Except Panic α)} (hchannel : st.channel = channel) : st.sent = channel :=
  (h.channel hthere).symm.trans hchannel

theorem Consistent.sent_of_working (h : b.Consistent token work forest st)
    (hworker : st.worker = .working) : st.sent = none := by
  by_contra hsome
  obtain ⟨answer, hanswer⟩ := Option.ne_none_iff_exists'.1 hsome
  cases (h.working hworker).symm.trans (h.sent answer hanswer)

theorem Moves.consistent_worker (hmoves : b.Moves token work st .worker st')
    (h : b.Consistent token work forest st) : b.Consistent token work forest st' := by
  cases hmoves with
  | @finish answer hworker hends =>
    have hsent := h.sent_of_working hworker
    exact
      { leads := h.leads
        ends := fun _ he => Option.some.inj he ▸ hends
        working := fun he => by cases he
        sending := fun _ he => by cases he; exact ⟨rfl, hsent⟩
        gone := fun he => by cases he
        sent := fun _ he => by cases hsent.symm.trans he
        channel := h.channel
        watched := h.watched }
  | @send answer hworker hroom hthere =>
    have hended := (h.sending answer hworker).1
    exact
      { leads := h.leads
        ends := h.ends
        working := fun he => by cases he
        sending := fun _ he => by cases he
        gone := fun _ he => by cases he
        sent := fun _ he => Option.some.inj he ▸ hended
        channel := fun _ => rfl
        watched := h.watched.send hthere _ }
  | @hangUp answer hworker hleft =>
    exact
      { h with
        working := fun he => by cases he
        sending := fun _ he => by cases he
        gone := fun _ _ => hleft }

theorem Moves.consistent_controller (hmoves : b.Moves token work st .controller st')
    (h : b.Consistent token work forest st) (hnow : st.forest.Sound)
    (ht : token ∈ st.forest.handles) : b.Consistent token work forest st' := by
  have hwatched := h.watched
  cases hmoves with
  | @receive answer hcontroller hchannel =>
    rw [hcontroller] at hwatched
    exact h.leave ⟨.inTime answer, rfl, h.sent_eq (hcontroller ▸ trivial) hchannel, hwatched⟩
  | disconnect hcontroller hchannel hworker =>
    -- a worker that is gone has sent its answer, and nobody has received it
    have hsent := h.sent_eq (hcontroller ▸ trivial) hchannel
    exact absurd (hcontroller ▸ trivial) (h.gone hworker hsent)
  | record hcontroller =>
    have hrecorded : b.Recorded token (st.forest.record token b.scope)
        (some (st.forest.tokens.cell token.cell).reason) :=
      ⟨_, rfl, congrArg TokenCell.reason (Tokens.cell_record_self b.scope (hnow.known token ht))⟩
    exact h.stay (hcontroller ▸ trivial) (h.leads.tail (.record ht b.scope))
      ⟨hrecorded, List.mem_cons_self⟩
  | raise hcontroller =>
    rw [hcontroller] at hwatched
    obtain ⟨hrecorded, hpending⟩ := hwatched
    have hraise := Forest.Moves.raise hpending
    have hraised : ((st.forest.raise token).tokens.cell token.cell).raised :=
      congrArg TokenCell.raised (Tokens.cell_raise_self (hnow.known token ht))
    exact h.stay (hcontroller ▸ trivial) (h.leads.tail hraise)
      ⟨hrecorded.leads hnow ht (.single hraise), hraised⟩
  | @late answer hcontroller hchannel =>
    rw [hcontroller] at hwatched
    exact h.leave ⟨.inGrace answer, rfl, h.sent_eq (hcontroller ▸ trivial) hchannel, hwatched⟩
  | graceLost hcontroller hchannel =>
    rw [hcontroller] at hwatched
    exact h.leave ⟨.never, rfl, h.sent_eq (hcontroller ▸ trivial) hchannel, hwatched⟩

theorem Moves.consistent_clock (hmoves : b.Moves token work st .clock st')
    (h : b.Consistent token work forest st) : b.Consistent token work forest st' := by
  have hwatched := h.watched
  cases hmoves with
  | expire hcontroller hchannel =>
    rw [hcontroller] at hwatched
    exact h.stay (hcontroller ▸ trivial) h.leads hwatched
  | graceOver hcontroller hchannel =>
    rw [hcontroller] at hwatched
    exact h.leave ⟨.never, rfl, h.sent_eq (hcontroller ▸ trivial) hchannel, hwatched⟩

theorem Moves.consistent_others (hmoves : b.Moves token work st .others st')
    (h : b.Consistent token work forest st) (hnow : st.forest.Sound)
    (ht : token ∈ st.forest.handles) : b.Consistent token work forest st' := by
  cases hmoves with
  | other hmoves hpending =>
    exact { h with
      leads := h.leads.tail hmoves
      watched := h.watched.leads hnow ht (.single hmoves) hpending }

/-- **Every move keeps an exchange consistent.** -/
theorem Moves.consistent (hmoves : b.Moves token work st party st')
    (h : b.Consistent token work forest st) (hsound : forest.Sound)
    (hhandle : token ∈ forest.handles) : b.Consistent token work forest st' := by
  have hnow := hsound.leads h.leads
  have ht := h.leads.kept.handles hhandle
  cases party with
  | worker => exact hmoves.consistent_worker h
  | controller => exact hmoves.consistent_controller h hnow ht
  | clock => exact hmoves.consistent_clock h
  | others => exact hmoves.consistent_others h hnow ht

theorem Schedule.consistent (h : b.Schedule token work forest parties st) (hsound : forest.Sound)
    (hhandle : token ∈ forest.handles) : b.Consistent token work forest st := by
  induction h with
  | begin => exact consistent_begin
  | move _ hmoves ih => exact hmoves.consistent ih hsound hhandle

/-! ## Both threads come to an end -/

/-- A bound on the moves that the worker still has. -/
def Worker.weight : Worker α → Nat
  | working => 2
  | sending _ => 1
  | gone => 0

/-- A bound on the moves that the controller still has, and the clock for it. -/
def Controller.weight : Controller α → Nat
  | waiting => 4
  | expired => 3
  | recorded => 2
  | inGrace => 1
  | left _ => 0

/-- Every move of the two threads leaves fewer of them. -/
theorem Moves.weight_lt (h : b.Moves token work st party st') :
    (if party ≠ .others then 1 else 0) + (st'.worker.weight + st'.controller.weight) ≤
      st.worker.weight + st.controller.weight := by
  cases h with
  | finish hworker | send hworker | hangUp hworker =>
    simp only [hworker, Worker.weight, ne_eq, reduceCtorEq, not_false_eq_true, if_true]
    omega
  | receive hcontroller | disconnect hcontroller | expire hcontroller | record hcontroller
  | raise hcontroller | late hcontroller | graceOver hcontroller | graceLost hcontroller =>
    simp only [hcontroller, Controller.weight, ne_eq, reduceCtorEq, not_false_eq_true, if_true]
    omega
  | other => simp

/-- **The two threads come to an end**: together they make at most six moves. -/
theorem Schedule.countP_le (h : b.Schedule token work forest parties st) :
    parties.countP (· ≠ .others) ≤ 6 := by
  have hleft : parties.countP (· ≠ .others) + (st.worker.weight + st.controller.weight) ≤ 6 := by
    induction h with
    | begin => rfl
    | move _ hmoves ih =>
      have := hmoves.weight_lt
      rw [List.countP_append, List.countP_singleton]
      simp only [decide_eq_true_eq]
      omega
  omega

/-! ## Nothing is lost -/

/-- **An exchange is faithful**: an answer is neither lost nor invented nor mislabelled. -/
structure Faithful (b : TimeBound) (token : Token) (work : Act ε α) (st : Exchange α) : Prop where
  /-- work is reported as finished only if the controller has not cancelled the token -/
  finished : ∀ value, st.controller = .left (.ok (.finished value)) →
    st.found = none ∧ st.ended = some (.ok value)
  /-- it is reported as late only if the controller has cancelled it, for its own scope unless there
  was a reason already -/
  timedOut : ∀ late, st.controller = .left (.ok (.timedOut late)) →
    b.Cancelled token st.forest st.found ∧ ∀ value, late = some value → st.ended = some (.ok value)
  /-- a failure is a panic that has escaped from the work -/
  failed : ∀ f, st.controller = .left (.error f) →
    ∃ p, st.ended = some (.error p) ∧ f = .workload [s!"worker panicked: {p.message}"]
  ends : ∀ answer, st.ended = some answer → EndsWith work answer
  /-- a value that is sent before the last wait has expired is returned -/
  returned : ∀ value report, st.sent = some (.ok value) → st.controller = .left report →
    report = .ok (.finished value) ∨ report = .ok (.timedOut (some value))
  /-- and so is a panic, whichever wait it ends -/
  panicked : ∀ p report, st.sent = some (.error p) → st.controller = .left report →
    report = .error (.workload [s!"worker panicked: {p.message}"])
  /-- a worker that is through has sent its answer, unless the controller had left -/
  handed : st.worker = .gone → st.controller.There → ∃ answer, st.sent = some answer
  /-- a worker that sends goes on, whether the controller is there or not -/
  unblocked : ∀ answer, st.worker = .sending answer →
    ∃ st', b.Moves token work st .worker st' ∧ st'.worker = .gone
  /-- the controller goes on until it leaves, or its wait ends -/
  going : st.controller.There → ∃ party st', (party = .controller ∨ party = .clock) ∧
    b.Moves token work st party st'

/-- A controller that is there can make a move, or its wait can end. -/
theorem exists_moves_controller (b : TimeBound) (token : Token) (work : Act ε α)
    (hthere : st.controller.There) : ∃ party st', (party = .controller ∨ party = .clock) ∧
      b.Moves token work st party st' := by
  cases hcontroller : st.controller with
  | waiting =>
    cases hchannel : st.channel with
    | none => exact ⟨.clock, _, .inr rfl, .expire hcontroller hchannel⟩
    | some answer => exact ⟨.controller, _, .inl rfl, .receive hcontroller hchannel⟩
  | expired => exact ⟨.controller, _, .inl rfl, .record hcontroller⟩
  | recorded => exact ⟨.controller, _, .inl rfl, .raise hcontroller⟩
  | inGrace =>
    cases hchannel : st.channel with
    | none => exact ⟨.clock, _, .inr rfl, .graceOver hcontroller hchannel⟩
    | some answer => exact ⟨.controller, _, .inl rfl, .late hcontroller hchannel⟩
  | left report => exact absurd hthere (hcontroller ▸ id)

theorem Consistent.exists_moves_worker (h : b.Consistent token work forest st)
    {answer : Except Panic α} (hworker : st.worker = .sending answer) :
    ∃ st', b.Moves token work st .worker st' ∧ st'.worker = .gone := by
  by_cases hthere : st.controller.There
  · have hroom := (h.channel hthere).trans (h.sending answer hworker).2
    exact ⟨_, .send hworker hroom hthere, rfl⟩
  · exact ⟨_, .hangUp hworker hthere, rfl⟩

theorem Consistent.arrived (h : b.Consistent token work forest st)
    {report : Except Failure (Bounded α)} (hleft : st.controller = .left report) :
    ∃ arrival, report = conclude arrival ∧ b.Arrived token st.forest st.found st.sent arrival := by
  have hwatched := h.watched
  rwa [hleft] at hwatched

/-- Of a report we know what has arrived, and when. -/
theorem Consistent.faithful (h : b.Consistent token work forest st) :
    b.Faithful token work st where
  finished value hleft := by
    obtain ⟨arrival, hreport, harrived⟩ := h.arrived hleft
    cases arrival with
    | inTime answer =>
      cases answer with
      | ok v =>
        cases hreport
        exact ⟨harrived.2, h.sent _ harrived.1⟩
      | error p => cases hreport
    | inGrace answer => cases answer <;> cases hreport
    | never => cases hreport
  timedOut late hleft := by
    obtain ⟨arrival, hreport, harrived⟩ := h.arrived hleft
    cases arrival with
    | inTime answer => cases answer <;> cases hreport
    | inGrace answer =>
      cases answer with
      | ok v =>
        cases hreport
        exact ⟨harrived.2, fun _ he => Option.some.inj he ▸ h.sent _ harrived.1⟩
      | error p => cases hreport
    | never =>
      cases hreport
      exact ⟨harrived.2, fun _ he => by cases he⟩
  failed f hleft := by
    obtain ⟨arrival, hreport, harrived⟩ := h.arrived hleft
    cases arrival with
    | inTime answer | inGrace answer =>
      cases answer with
      | ok v => cases hreport
      | error p =>
        cases hreport
        exact ⟨p, h.sent _ harrived.1, rfl⟩
    | never => cases hreport
  ends := h.ends
  returned value report hsent hleft := by
    obtain ⟨arrival, hreport, harrived⟩ := h.arrived hleft
    cases arrival with
    | inTime answer =>
      cases hsent.symm.trans harrived.1
      exact .inl hreport
    | inGrace answer =>
      cases hsent.symm.trans harrived.1
      exact .inr hreport
    | never => cases hsent.symm.trans harrived.1
  panicked p report hsent hleft := by
    obtain ⟨arrival, hreport, harrived⟩ := h.arrived hleft
    cases arrival with
    | inTime answer | inGrace answer =>
      cases hsent.symm.trans harrived.1
      exact hreport
    | never => cases hsent.symm.trans harrived.1
  handed hworker hthere := by
    refine Option.ne_none_iff_exists'.1 fun hnone => ?_
    exact h.gone hworker hnone hthere
  unblocked _ hworker := h.exists_moves_worker hworker
  going hthere := b.exists_moves_controller token work hthere

end TimeBound

end Gauge
