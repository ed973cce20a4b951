import Gauge.Proofs.Suite.Method
import Gauge.Suite

/-!
# The worker and the controller of a suite

A suite runs on two threads.  The worker runs the methods one after another and sends each outcome;
the controller takes the outcomes, cancels the suite when the deadline passes, waits a grace period
for one more outcome, and fills in the rest.  Between any two moves of one thread the other one can
make moves of its own, and the deadline and the grace period can end at any time.

## Main definitions

* `Progress κ` — the state that both threads share, with all outcomes that methods have answered.
* `Suite.Moves` — one move of one thread, or of the clock.
* `Suite.Schedule` — the moves from the beginning of a suite to a state of it.

## Main statements

* `Suite.Schedule.length_le` — every schedule ends.
* `Suite.Moves.aligned`, `Suite.Moves.untouched`, `Suite.Moves.delivered` — what every move keeps.
-/

namespace Gauge

/-! ## States -/

inductive Worker (κ : Type) where
  /-- before it looks whether the suite is cancelled -/
  | checking (rest : List (Method κ))
  /-- the suite was not cancelled when it looked -/
  | starting (m : Method κ) (rest : List (Method κ))
  /-- inside of a method, with the token made for it -/
  | running (m : Method κ) (rest : List (Method κ)) (token : Token)
  | sending (o : MethodOutcome) (rest : List (Method κ))
  | finished
  /-- the factory of a method broke off -/
  | died (p : Panic)

inductive Controller where
  | waiting
  /-- the deadline has passed -/
  | expired
  /-- the token of the suite has the reason -/
  | recorded
  /-- the token of the suite is cancelled -/
  | raised
  /-- the method that was running is cancelled as well -/
  | inGrace
  | filling
  | done
  deriving DecidableEq

/-- Whose move it is. -/
inductive Mover where
  | worker
  | controller
  | clock
  deriving DecidableEq

/-- How far a suite has come. -/
structure Progress (κ : Type) where
  tokens : Tokens
  worker : Worker κ
  /-- the token of the method that the worker has begun last -/
  inFlight : Option Token := none
  /-- what was sent and not received -/
  channel : List MethodOutcome := []
  controller : Controller := .waiting
  timedOut : Bool := false
  outcomes : List MethodOutcome := []
  /-- what the caller was told -/
  told : List MethodOutcome := []
  /-- what the methods have answered so far -/
  produced : List MethodOutcome := []

namespace Worker

variable {κ : Type}

/-- The methods without an answer, as long as the worker goes on. -/
def waiting? : Worker κ → Option (List (Method κ))
  | checking rest | sending _ rest => some rest
  | starting m rest | running m rest _ => some (m :: rest)
  | finished | died _ => none

/-- The outcome that was not sent yet. -/
def unsent : Worker κ → List MethodOutcome
  | sending o _ => [o]
  | _ => []

/-- A bound on the moves that the worker still has. -/
def weight : Worker κ → Nat
  | checking rest => 4 * rest.length + 1
  | starting _ rest => 4 * rest.length + 4
  | running _ rest _ => 4 * rest.length + 3
  | sending _ rest => 4 * rest.length + 2
  | finished | died _ => 0

end Worker

namespace Controller

/-- Before the suite is cancelled. -/
def Quiet : Controller → Prop
  | waiting | expired => True
  | _ => False

/-- Before the last outcome was taken. -/
def Receiving : Controller → Prop
  | filling | done => False
  | _ => True

/-- A bound on the moves that the controller still has, apart from its reports. -/
def weight : Controller → Nat
  | waiting => 6
  | expired => 5
  | recorded => 4
  | raised => 3
  | inGrace => 2
  | filling => 1
  | done => 0

end Controller

/-- Tells the caller of an outcome and keeps it. -/
@[simps]
def Progress.report {κ : Type} (st : Progress κ) (o : MethodOutcome) : Progress κ :=
  { st with told := st.told ++ [o], outcomes := st.outcomes ++ [o] }

namespace Suite

variable {κ : Type}

/-- What is reported of a method without an answer. -/
def unanswered (s : Suite κ) (timedOut : Bool) (m : Method κ) : MethodOutcome :=
  if timedOut then .suiteTimeout m.name s.timeout else .withoutWorker m.name

/-- The beginning of a suite, among the tokens that there are. -/
def begin (s : Suite κ) (tokens : Tokens) : Progress κ :=
  { tokens := tokens.root.2, worker := .checking s.methods }

/-- A method answers with an outcome, in some world. -/
def Answers [Device κ] (s : Suite κ) (m : Method κ) (o : MethodOutcome) : Prop :=
  ∃ token w v, m.execute s.registry token w = .ok o v

/-! ## Moves -/

/-- **One move** of a suite with the given token.  What happens inside of a method does not depend
on the other thread but for its token; until a reason is recorded for that one, nobody disturbs the
method. -/
inductive Moves [Device κ] (s : Suite κ) (token : Token) (st : Progress κ) :
    Mover → Progress κ → Prop
  -- the worker
  | pass {m rest} (hworker : st.worker = .checking (m :: rest))
      (hlive : st.tokens.isCancelled token = false) :
      Moves s token st .worker { st with worker := .starting m rest }
  | quit {m rest} (hworker : st.worker = .checking (m :: rest))
      (hcancelled : st.tokens.isCancelled token) :
      Moves s token st .worker { st with worker := .finished }
  | finish (hworker : st.worker = .checking []) :
      Moves s token st .worker { st with worker := .finished }
  | enter {m rest} (hworker : st.worker = .starting m rest) :
      Moves s token st .worker
        { st with
          tokens := (st.tokens.child token).2
          inFlight := some (st.tokens.child token).1
          worker := .running m rest (st.tokens.child token).1 }
  | answer {m rest child o w v} (hworker : st.worker = .running m rest child)
      (hanswer : m.execute s.registry child w = .ok o v)
      (hundisturbed : st.tokens.reason? child = none → w.Undisturbed child v) :
      Moves s token st .worker
        { st with worker := .sending o rest, produced := st.produced ++ [o] }
  | die {m rest child p w v} (hworker : st.worker = .running m rest child)
      (hpanic : m.execute s.registry child w = .error (.panic p) v) :
      Moves s token st .worker { st with worker := .died p }
  | send {o rest} (hworker : st.worker = .sending o rest) (hcontroller : st.controller ≠ .done) :
      Moves s token st .worker
        { st with worker := .checking rest, channel := st.channel ++ [o] }
  -- nobody is left to receive
  | hangUp {o rest} (hworker : st.worker = .sending o rest) (hcontroller : st.controller = .done) :
      Moves s token st .worker { st with worker := .finished }
  -- the controller before the deadline; the wait ends when all methods have answered, when the
  -- deadline passes, or when the channel is empty and the worker is gone
  | receive {o rest} (hcontroller : st.controller = .waiting)
      (hshort : st.outcomes.length < s.methods.length) (hchannel : st.channel = o :: rest) :
      Moves s token st .controller ({ st with channel := rest }.report o)
  | complete (hcontroller : st.controller = .waiting)
      (hfull : s.methods.length ≤ st.outcomes.length) :
      Moves s token st .controller { st with controller := .done }
  | expire (hcontroller : st.controller = .waiting)
      (hshort : st.outcomes.length < s.methods.length) :
      Moves s token st .clock { st with controller := .expired, timedOut := true }
  | disconnect (hcontroller : st.controller = .waiting)
      (hshort : st.outcomes.length < s.methods.length) (hchannel : st.channel = [])
      (hworker : st.worker.waiting? = none) :
      Moves s token st .controller { st with controller := .filling }
  -- the controller after the deadline: it cancels the suite in two steps, then the method that was
  -- begun last, and waits for one more outcome
  | record (hcontroller : st.controller = .expired) :
      Moves s token st .controller
        { st with controller := .recorded, tokens := st.tokens.record token .suite }
  | raise (hcontroller : st.controller = .recorded) :
      Moves s token st .controller
        { st with controller := .raised, tokens := st.tokens.raise token }
  | interrupt (hcontroller : st.controller = .raised) :
      Moves s token st .controller
        { st with
          controller := .inGrace
          inFlight := none
          tokens := match st.inFlight with
            | none => st.tokens
            | some child => st.tokens.cancel child .suite }
  | late {o rest} (hcontroller : st.controller = .inGrace) (hchannel : st.channel = o :: rest) :
      Moves s token st .controller
        ({ st with controller := .filling, channel := rest }.report (o.relabelled s.timeout))
  | graceOver {m} (hcontroller : st.controller = .inGrace)
      (hmethod : s.methods[st.outcomes.length]? = some m) :
      Moves s token st .clock ({ st with controller := .filling }.report
        ((MethodOutcome.suiteTimeout m.name s.timeout).relabelled s.timeout))
  | graceLost {m} (hcontroller : st.controller = .inGrace) (hchannel : st.channel = [])
      (hworker : st.worker.waiting? = none) (hmethod : s.methods[st.outcomes.length]? = some m) :
      Moves s token st .controller ({ st with controller := .filling }.report
        ((MethodOutcome.suiteTimeout m.name s.timeout).relabelled s.timeout))
  -- what is left is reported without a wait
  | fill {m} (hcontroller : st.controller = .filling)
      (hmethod : s.methods[st.outcomes.length]? = some m) :
      Moves s token st .controller (st.report (s.unanswered st.timedOut m))
  | leave (hcontroller : st.controller = .filling)
      (hfull : s.methods.length ≤ st.outcomes.length) :
      Moves s token st .controller { st with controller := .done }

/-- A schedule of a suite: whose moves lead from its beginning to a state. -/
inductive Schedule [Device κ] (s : Suite κ) (tokens : Tokens) : List Mover → Progress κ → Prop
  | begin : Schedule s tokens [] (s.begin tokens)
  | move {movers mover st st'} (h : Schedule s tokens movers st)
      (hmove : s.Moves tokens.root.1 st mover st') : Schedule s tokens (movers ++ [mover]) st'

/-- The first element of what is left of a list. -/
theorem getElem?_of_drop {α : Type} {l rest : List α} {n : Nat} {a : α}
    (h : l.drop n = a :: rest) : l[n]? = some a := by
  rw [← Nat.add_zero n, ← List.getElem?_drop, h]
  rfl

variable [Device κ] {s : Suite κ} {token : Token} {tokens : Tokens} {mover : Mover}
  {movers : List Mover} {st st' : Progress κ}

/-- What holds in the beginning and is kept by every move holds in every state of a suite. -/
theorem Schedule.invariant {P : Progress κ → Prop} (hbegin : P (s.begin tokens))
    (hmoves : ∀ st mover st', s.Moves tokens.root.1 st mover st' → P st → P st')
    (h : s.Schedule tokens movers st) : P st := by
  induction h with
  | begin => exact hbegin
  | move _ hmove ih => exact hmoves _ _ _ hmove ih

/-! ## Every schedule ends -/

/-- A bound on the moves that are left. -/
def weight (s : Suite κ) (st : Progress κ) : Nat :=
  st.worker.weight + st.controller.weight + (s.methods.length - st.outcomes.length)

/-- Every move leaves fewer moves. -/
theorem Moves.weight_lt (h : s.Moves token st mover st') : s.weight st' < s.weight st := by
  cases h with
  | pass hworker | quit hworker | finish hworker | enter hworker | answer hworker | die hworker
  | send hworker | hangUp hworker =>
    simp only [weight, hworker, Worker.weight, List.length_cons, List.length_nil]
    omega
  | complete hcontroller | expire hcontroller | disconnect hcontroller | record hcontroller
  | raise hcontroller | interrupt hcontroller | late hcontroller | graceOver hcontroller
  | graceLost hcontroller | leave hcontroller =>
    simp only [weight, hcontroller, Controller.weight, Progress.report_worker,
      Progress.report_controller, Progress.report_outcomes, List.length_append]
    omega
  | receive hcontroller hshort =>
    simp only [weight, Progress.report_worker, Progress.report_controller, Progress.report_outcomes,
      List.length_append, List.length_singleton]
    omega
  | fill hcontroller hmethod =>
    have hshort := (List.getElem?_eq_some_iff.1 hmethod).1
    simp only [weight, Progress.report_worker, Progress.report_controller, Progress.report_outcomes,
      List.length_append, List.length_singleton]
    omega

/-- **Every schedule ends**: there are at most five moves for each method and seven more. -/
theorem Schedule.length_le (h : s.Schedule tokens movers st) :
    movers.length ≤ 5 * s.methods.length + 7 := by
  have hleft : movers.length + s.weight st ≤ s.weight (s.begin tokens) := by
    induction h with
    | begin => simp
    | move _ hmove ih =>
      have := hmove.weight_lt
      rw [List.length_append, List.length_singleton]
      omega
  simp only [weight, Suite.begin, Worker.weight, Controller.weight, List.length_nil] at hleft
  omega

/-! ## Methods and answers -/

/-- The answers so far are those of the first methods, one for each, and the worker goes on with the
next one. -/
structure Aligned (s : Suite κ) (st : Progress κ) : Prop where
  answers : List.Forall₂ s.Answers (s.methods.take st.produced.length) st.produced
  rest : ∀ rest, st.worker.waiting? = some rest → s.methods.drop st.produced.length = rest
  died : ∀ p, st.worker = .died p →
    ∃ m, s.methods[st.produced.length]? = some m ∧ m.factory = .error p

namespace Aligned

theorem length_le (h : s.Aligned st) : st.produced.length ≤ s.methods.length := by
  have := h.answers.length_eq
  rw [List.length_take] at this
  omega

/-- What is kept by a move without a new answer. -/
theorem keep (h : s.Aligned st) (hproduced : st'.produced = st.produced)
    (hrest : ∀ rest, st'.worker.waiting? = some rest → st.worker.waiting? = some rest)
    (hdied : ∀ p, st'.worker = .died p → st.worker = .died p) : s.Aligned st' where
  answers := by
    rw [hproduced]
    exact h.answers
  rest rest hrest' := by
    rw [hproduced]
    exact h.rest rest (hrest rest hrest')
  died p hp := by
    rw [hproduced]
    exact h.died p (hdied p hp)

theorem mem_methods {m : Method κ} {rest : List (Method κ)} (h : s.Aligned st)
    (hrest : st.worker.waiting? = some (m :: rest)) : m ∈ s.methods :=
  List.mem_of_mem_drop (h.rest _ hrest ▸ List.mem_cons_self)

end Aligned

theorem aligned_begin : s.Aligned (s.begin tokens) where
  answers := .nil
  rest _ h := Option.some.inj h
  died _ h := by cases h

/-- The worker goes through the methods in order. -/
theorem Moves.aligned (h : s.Moves token st mover st') (hst : s.Aligned st) : s.Aligned st' := by
  cases h with
  | pass hworker | enter hworker | send hworker =>
    exact hst.keep rfl (fun _ hrest => by rw [hworker]; exact hrest) fun _ hp => by cases hp
  | quit | finish | hangUp =>
    exact hst.keep rfl (fun _ hrest => by cases hrest) fun _ hp => by cases hp
  | @answer m rest child o w v hworker hanswer =>
    have hrest : s.methods.drop st.produced.length = m :: rest := hst.rest _ (by rw [hworker]; rfl)
    have hm := List.getElem?_eq_some_iff.1 (getElem?_of_drop hrest)
    refine ⟨?_, fun rest' hrest' => ?_, fun p hp => by cases hp⟩
    · dsimp only
      rw [List.length_append, List.length_singleton, List.take_succ_eq_append_getElem hm.1, hm.2]
      exact List.rel_append hst.answers (.cons ⟨child, w, v, hanswer⟩ .nil)
    · cases hrest'
      dsimp only
      rw [List.length_append, List.length_singleton, ← List.drop_drop, hrest]
      rfl
  | @die m rest child p w v hworker hpanic =>
    have hrest : s.methods.drop st.produced.length = m :: rest := hst.rest _ (by rw [hworker]; rfl)
    refine ⟨hst.answers, fun _ hrest' => (by cases hrest'), fun q hq => ?_⟩
    cases hq
    exact ⟨m, getElem?_of_drop hrest, Method.factory_of_panic hpanic⟩
  | _ => exact hst.keep rfl (fun _ => id) fun _ => id

/-! ## Tokens -/

/-- Before the suite is cancelled nobody has touched its token, nor that of the method that is
running. -/
structure Untouched (token : Token) (st : Progress κ) : Prop where
  suite : st.controller.Quiet → ∀ i ∈ token.path, st.tokens.cell i = {}
  method : st.controller.Quiet → ∀ m rest child, st.worker = .running m rest child →
    ∀ i ∈ child.path, st.tokens.cell i = {}

omit [Device κ] in
/-- A suite that nobody has touched is not cancelled. -/
theorem Untouched.live (h : Untouched token st) (hquiet : st.controller.Quiet) :
    st.tokens.isCancelled token = false := by
  refine List.any_eq_false.2 fun i hi => ?_
  rw [h.suite hquiet i hi]
  exact Bool.false_ne_true

omit [Device κ] in
theorem untouched_begin : Untouched tokens.root.1 (s.begin tokens) where
  suite _ i hi := by
    rw [List.mem_singleton.1 hi]
    exact tokens.cell_push tokens.cells.size ▸ tokens.cell_size
  method _ _ _ _ h := by cases h

theorem Moves.untouched (h : s.Moves token st mover st') (hst : Untouched token st) :
    Untouched token st' := by
  cases h with
  | enter hworker =>
    refine ⟨fun hquiet i hi => ?_, fun hquiet m rest child hrunning i hi => ?_⟩
    · rw [← hst.suite hquiet i hi]
      exact st.tokens.cell_push i
    · cases hrunning
      refine (st.tokens.cell_push i).trans ?_
      rcases List.mem_cons.1 hi with rfl | hi
      · exact st.tokens.cell_size
      · exact hst.suite hquiet i hi
  | pass | quit | finish | answer | die | send | hangUp =>
    exact ⟨hst.suite, fun _ _ _ _ hrunning => by cases hrunning⟩
  | receive => exact ⟨hst.suite, hst.method⟩
  | expire hcontroller =>
    have hquiet : st.controller.Quiet := hcontroller ▸ trivial
    exact ⟨fun _ => hst.suite hquiet, fun _ => hst.method hquiet⟩
  | fill hcontroller =>
    have hfilling : ¬ st.controller.Quiet := hcontroller ▸ id
    exact ⟨fun hquiet => absurd hquiet hfilling, fun hquiet => absurd hquiet hfilling⟩
  | complete | disconnect | record | raise | interrupt | late | graceOver | graceLost | leave =>
    exact ⟨fun hquiet => absurd hquiet id, fun hquiet => absurd hquiet id⟩

/-! ## Outcomes and answers -/

/-- The reports of a suite in parts: the outcomes that were received, one that was late, and what is
said of the methods that have not answered, whether that was reported already or not. -/
structure Parts (s : Suite κ) (st : Progress κ) (received : List MethodOutcome)
    (late : Option MethodOutcome) : Prop where
  taken : received ++ late.toList <+: st.produced
  reports : st.outcomes ++ (s.methods.drop st.outcomes.length).map (s.unanswered st.timedOut) =
    received ++ late.toList.map (·.relabelled s.timeout) ++
      (s.methods.drop (received ++ late.toList).length).map (s.unanswered st.timedOut)
  expired : late.isSome → st.timedOut
  cause : (received ++ late.toList).length < s.methods.length →
    st.timedOut ∨ ∃ p, st.worker = .died p

/-- Nothing gets lost between the worker and the controller. -/
structure Delivered (s : Suite κ) (st : Progress κ) : Prop where
  told : st.told = st.outcomes
  /-- before the last outcome was taken, all answers are reported, in the channel or not sent -/
  flow : st.controller.Receiving → st.outcomes ++ st.channel ++ st.worker.unsent = st.produced
  /-- a deadline passes only before all methods have answered -/
  short : st.controller.Receiving → st.controller ≠ .waiting →
    st.timedOut ∧ st.outcomes.length < s.methods.length
  parts : ¬ st.controller.Receiving → ∃ received late, s.Parts st received late
  full : st.controller = .done → s.methods.length ≤ st.outcomes.length
  /-- a worker has no reason to stop early before the deadline -/
  idle : st.worker = .finished → st.controller = .waiting →
    st.produced.length = s.methods.length

omit [Device κ] in
theorem delivered_begin : s.Delivered (s.begin tokens) where
  told := rfl
  flow _ := rfl
  short _ h := absurd rfl h
  parts h := absurd trivial h
  full h := by cases h
  idle h := by cases h

omit [Device κ] in
/-- What the timeout of the suite says of a method is no cancellation. -/
theorem relabelled_suiteTimeout (name : String) (limit : Duration) :
    (MethodOutcome.suiteTimeout name limit).relabelled limit = .suiteTimeout name limit :=
  if_neg fun h => by cases h

namespace Parts

variable {received : List MethodOutcome} {late : Option MethodOutcome}

omit [Device κ] in
/-- The parts do not depend on where the controller is. -/
theorem of_controller (h : s.Parts st received late) (controller : Controller) :
    s.Parts { st with controller := controller } received late :=
  ⟨h.taken, h.reports, h.expired, h.cause⟩

omit [Device κ] in
/-- A report of a method without an answer was among those to come. -/
theorem fill {m : Method κ} (h : s.Parts st received late)
    (hmethod : s.methods[st.outcomes.length]? = some m) :
    s.Parts (st.report (s.unanswered st.timedOut m)) received late := by
  refine ⟨h.taken, Eq.trans ?_ h.reports, h.expired, h.cause⟩
  obtain ⟨hlt, hm⟩ := List.getElem?_eq_some_iff.1 hmethod
  rw [List.drop_eq_getElem_cons hlt, hm, Progress.report_outcomes, List.length_append,
    List.length_singleton, List.append_assoc]
  rfl

end Parts

namespace Delivered

omit [Device κ] in
theorem outcomes_prefix (h : s.Delivered st) (hreceiving : st.controller.Receiving) :
    st.outcomes <+: st.produced :=
  ⟨st.channel ++ st.worker.unsent, by rw [← List.append_assoc]; exact h.flow hreceiving⟩

omit [Device κ] in
/-- Before the last outcome was taken, all reports are outcomes that were received. -/
theorem parts_now (h : s.Delivered st) (hreceiving : st.controller.Receiving)
    (hcause : st.outcomes.length < s.methods.length →
      st.timedOut ∨ ∃ p, st.worker = .died p) : s.Parts st st.outcomes none where
  taken := by
    rw [Option.toList_none, List.append_nil]
    exact h.outcomes_prefix hreceiving
  reports := by simp
  expired hlate := by cases hlate
  cause := by simpa using hcause

omit [Device κ] in
/-- A worker that is gone before all methods were received has died: one that has finished has sent
all answers. -/
theorem died_of_gone (h : s.Delivered st) (hwaiting : st.controller = .waiting)
    (hshort : st.outcomes.length < s.methods.length) (hchannel : st.channel = [])
    (hgone : st.worker.waiting? = none) : ∃ p, st.worker = .died p := by
  cases hworker : st.worker with
  | died p => exact ⟨p, rfl⟩
  | finished =>
    have hproduced : st.outcomes = st.produced := by
      simpa [hchannel, hworker, Worker.unsent] using h.flow (hwaiting ▸ trivial)
    have hfull := h.idle hworker hwaiting
    rw [← hproduced] at hfull
    omega
  | checking | starting | running | sending =>
    rw [hworker] at hgone
    cases hgone

omit [Device κ] in
/-- What is left to know when the last outcome was taken. -/
theorem closed (hclosed : ¬ st.controller.Receiving) (htold : st.told = st.outcomes)
    (hparts : ∃ received late, s.Parts st received late)
    (hfull : st.controller = .done → s.methods.length ≤ st.outcomes.length) : s.Delivered st where
  told := htold
  flow hc := absurd hc hclosed
  short hc := absurd hc hclosed
  parts _ := hparts
  full := hfull
  idle _ hwaiting := absurd (by rw [hwaiting]; trivial) hclosed

variable {worker : Worker κ} {inFlight : Option Token} {channel produced : List MethodOutcome}

omit [Device κ] in
/-- A move of the worker loses nothing if it keeps track of its answer. -/
theorem work (h : s.Delivered st) (halive : st.worker.waiting? ≠ none)
    (hflow : st.controller.Receiving → st.outcomes ++ channel ++ worker.unsent = produced)
    (hproduced : st.produced <+: produced)
    (hidle : worker = .finished → st.controller = .waiting →
      produced.length = s.methods.length) :
    s.Delivered { st with
      tokens := tokens, inFlight := inFlight, worker := worker, channel := channel,
      produced := produced } where
  told := h.told
  flow := hflow
  short := h.short
  parts hc := by
    obtain ⟨received, late, hparts⟩ := h.parts hc
    refine ⟨received, late, hparts.taken.trans hproduced, hparts.reports, hparts.expired,
      fun hlt => (hparts.cause hlt).imp_right ?_⟩
    rintro ⟨p, hp⟩
    rw [hp] at halive
    exact absurd rfl halive
  full := h.full
  idle := hidle

omit [Device κ] in
/-- A move of the worker that neither answers nor sends. -/
theorem workQuietly (h : s.Delivered st) (halive : st.worker.waiting? ≠ none)
    (hunsent : worker.unsent = st.worker.unsent)
    (hidle : worker = .finished → st.controller = .waiting →
      st.produced.length = s.methods.length) :
    s.Delivered { st with tokens := tokens, inFlight := inFlight, worker := worker } :=
  h.work halive (hunsent ▸ h.flow) (List.prefix_refl _) hidle

end Delivered

/-- The moves of the worker lose no outcome. -/
theorem Moves.delivered_worker (h : s.Moves token st .worker st') (haligned : s.Aligned st)
    (huntouched : Untouched token st) (hst : s.Delivered st) : s.Delivered st' := by
  cases h with
  | pass hworker | enter hworker | die hworker =>
    exact hst.workQuietly (by simp [hworker, Worker.waiting?]) (by rw [hworker]; rfl)
      fun h => by cases h
  | quit hworker hcancelled =>
    refine hst.workQuietly (by simp [hworker, Worker.waiting?]) (by rw [hworker]; rfl)
      fun _ hwaiting => ?_
    simp [huntouched.live (hwaiting ▸ trivial)] at hcancelled
  | finish hworker =>
    refine hst.workQuietly (by simp [hworker, Worker.waiting?]) (by rw [hworker]; rfl)
      fun _ _ => ?_
    exact le_antisymm haligned.length_le
      (List.drop_eq_nil_iff.1 (haligned.rest [] (by rw [hworker]; rfl)))
  | answer hworker =>
    refine hst.work (by simp [hworker, Worker.waiting?]) (fun hc => ?_) (List.prefix_append _ _)
      fun h => by cases h
    rw [← hst.flow hc]
    simp [hworker, Worker.unsent]
  | send hworker =>
    refine hst.work (by simp [hworker, Worker.waiting?]) (fun hc => ?_) (List.prefix_refl _)
      fun h => by cases h
    simpa [hworker, Worker.unsent] using hst.flow hc
  | hangUp hworker hdone =>
    refine hst.work (by simp [hworker, Worker.waiting?]) (fun hc => ?_) (List.prefix_refl _)
      fun _ hwaiting => ?_
    · rw [hdone] at hc
      exact absurd hc id
    · cases hdone.symm.trans hwaiting

/-- Neither do those of the controller and of the clock. -/
theorem Moves.delivered_controller (h : s.Moves token st mover st') (hmover : mover ≠ .worker)
    (hst : s.Delivered st) : s.Delivered st' := by
  cases h with
  | receive hcontroller hshort hchannel =>
    refine ⟨congrArg (· ++ [_]) hst.told, fun hc => ?_, fun _ hne => absurd hcontroller hne,
      fun hc => absurd (hcontroller ▸ trivial) hc, fun hdone => ?_, hst.idle⟩
    · rw [← hst.flow hc, hchannel]
      simp
    · cases hcontroller.symm.trans hdone
  | expire hcontroller hshort =>
    exact ⟨hst.told, fun _ => hst.flow (hcontroller ▸ trivial), fun _ _ => ⟨rfl, hshort⟩,
      fun hc => absurd trivial hc, fun hdone => (by cases hdone),
      fun _ hwaiting => by cases hwaiting⟩
  | record hcontroller | raise hcontroller | interrupt hcontroller =>
    have hreceiving : st.controller.Receiving := hcontroller ▸ trivial
    exact ⟨hst.told, fun _ => hst.flow hreceiving,
      fun _ _ => hst.short hreceiving (by simp [hcontroller]),
      fun hc => absurd trivial hc, fun hdone => (by cases hdone),
      fun _ hwaiting => by cases hwaiting⟩
  | complete hcontroller hfull =>
    have hparts := hst.parts_now (hcontroller ▸ trivial) fun hlt => absurd hfull (not_le.2 hlt)
    exact .closed id hst.told ⟨_, _, hparts.of_controller .done⟩ fun _ => hfull
  | disconnect hcontroller hshort hchannel hworker =>
    have hparts := hst.parts_now (hcontroller ▸ trivial) fun _ =>
      .inr (hst.died_of_gone hcontroller hshort hchannel hworker)
    exact .closed id hst.told ⟨_, _, hparts.of_controller .filling⟩ fun hdone => by cases hdone
  | @late o rest hcontroller hchannel =>
    have hflow := hst.flow (hcontroller ▸ trivial)
    obtain ⟨htimedOut, -⟩ := hst.short (hcontroller ▸ trivial) (by simp [hcontroller])
    refine .closed id (congrArg (· ++ _) hst.told) ⟨st.outcomes, some o, ?_⟩
      fun hdone => by cases hdone
    refine ⟨?_, by simp, fun _ => htimedOut, fun _ => .inl htimedOut⟩
    exact ⟨rest ++ st.worker.unsent, by simpa [hchannel] using hflow⟩
  | @graceOver m hcontroller hmethod | @graceLost m hcontroller _ _ hmethod =>
    obtain ⟨htimedOut, -⟩ := hst.short (hcontroller ▸ trivial) (by simp [hcontroller])
    have hparts := hst.parts_now (hcontroller ▸ trivial) fun _ => .inl htimedOut
    have hreport : (MethodOutcome.suiteTimeout m.name s.timeout).relabelled s.timeout =
        s.unanswered st.timedOut m := by
      rw [relabelled_suiteTimeout, unanswered, if_pos htimedOut]
    rw [hreport]
    exact .closed id (congrArg (· ++ _) hst.told)
      ⟨_, _, (hparts.of_controller .filling).fill hmethod⟩ fun hdone => by cases hdone
  | fill hcontroller hmethod =>
    obtain ⟨received, late, hparts⟩ := hst.parts (hcontroller ▸ id)
    refine .closed (by simp [hcontroller, Controller.Receiving]) (congrArg (· ++ _) hst.told)
      ⟨received, late, hparts.fill hmethod⟩ fun hdone => ?_
    cases hcontroller.symm.trans hdone
  | leave hcontroller hfull =>
    obtain ⟨received, late, hparts⟩ := hst.parts (hcontroller ▸ id)
    exact .closed id hst.told ⟨received, late, hparts.of_controller .done⟩ fun _ => hfull
  | pass | quit | finish | enter | answer | die | send | hangUp => exact absurd rfl hmover

/-- **No move loses an outcome** or reports one twice. -/
theorem Moves.delivered (h : s.Moves token st mover st') (haligned : s.Aligned st)
    (huntouched : Untouched token st) (hst : s.Delivered st) : s.Delivered st' := by
  cases mover with
  | worker => exact h.delivered_worker haligned huntouched hst
  | controller | clock => exact h.delivered_controller (by decide) hst

end Suite

end Gauge
