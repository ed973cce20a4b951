import Gauge.Proofs.Token.Cells
import Gauge.Run.Loop

/-!
# What steps yield

A step answers and leaves a session behind, also where it fails.  A property of both is stated with
`Yields`, and its rules follow the way in which steps are put together.

## Main definitions

* `Yields` — a property of the answer of a step and of the state after it.
* `World.Later`, `World.Silent` — what no step in a world takes back.
* `Session.Onward` — what no step of a session takes back.
* `Step.Onwards` — a step that takes none of it back.
* `Run.Composes` — a property that a run has if its parts have it.

## Main statements

* `World.answers_checkpoint`, `Action.answers_perform` — the answers of a checkpoint and of an
  action that are left to themselves.
* `Run.Composes.execute` — a whole run has such a property.
* `Run.onwards_execute` — a whole run keeps its configuration, its collectors and its hooks, and
  cancelled tokens stay cancelled.
-/

namespace Gauge

/-! ## Answers and states -/

section Yields

variable {ε σ α β : Type} {x : EStateM ε σ α} {s : σ} {P Q : Except ε α → σ → Prop}

/-- The answer of a step and the state after it have a property. -/
def Yields (x : EStateM ε σ α) (s : σ) (Q : Except ε α → σ → Prop) : Prop :=
  match x s with
  | .ok a t => Q (.ok a) t
  | .error e t => Q (.error e) t

theorem Yields.intro (hok : ∀ a t, x s = .ok a t → Q (.ok a) t)
    (herror : ∀ e t, x s = .error e t → Q (.error e) t) : Yields x s Q := by
  rw [Yields]
  cases hx : x s with
  | ok a t => exact hok a t hx
  | error e t => exact herror e t hx

theorem Yields.mono (h : Yields x s P) (hPQ : ∀ r t, P r t → Q r t) : Yields x s Q := by
  rw [Yields] at h ⊢
  cases hx : x s with
  | ok a t => exact hPQ _ _ (by simpa only [hx] using h)
  | error e t => exact hPQ _ _ (by simpa only [hx] using h)

theorem Yields.and (hP : Yields x s P) (hQ : Yields x s Q) :
    Yields x s fun r t => P r t ∧ Q r t := by
  rw [Yields] at hP hQ ⊢
  cases hx : x s with
  | ok a t => exact ⟨by simpa only [hx] using hP, by simpa only [hx] using hQ⟩
  | error e t => exact ⟨by simpa only [hx] using hP, by simpa only [hx] using hQ⟩

theorem yields_true (x : EStateM ε σ α) (s : σ) : Yields x s fun _ _ => True := by
  rw [Yields]
  cases x s <;> trivial

theorem Yields.congr {y : EStateM ε σ α} {t : σ} (h : Yields y t Q) (heq : x s = y t) :
    Yields x s Q := by
  rwa [Yields, heq]

@[simp] theorem yields_pure (a : α) {Q : Except ε α → σ → Prop} :
    Yields (pure a) s Q ↔ Q (.ok a) s := Iff.rfl

@[simp] theorem yields_get {Q : Except ε σ → σ → Prop} : Yields get s Q ↔ Q (.ok s) s := Iff.rfl

@[simp] theorem yields_modify (f : σ → σ) {Q : Except ε PUnit → σ → Prop} :
    Yields (modify f) s Q ↔ Q (.ok ()) (f s) := Iff.rfl

/-- The second step goes on where the first one has answered. -/
@[simp] theorem yields_bind (x : EStateM ε σ α) (f : α → EStateM ε σ β)
    {Q : Except ε β → σ → Prop} :
    Yields (x >>= f) s Q ↔
      Yields x s fun r t =>
        match r with
        | .ok a => Yields (f a) t Q
        | .error e => Q (.error e) t := by
  have hbind : (x >>= f) s = match x s with
      | .ok a t => f a t
      | .error e t => .error e t := rfl
  rw [Yields, Yields, hbind]
  cases x s with
  | ok a t => rfl
  | error e t => rfl

@[simp] theorem yields_fail (f : Failure) {Q : Except Halt α → σ → Prop} :
    Yields (fail f) s Q ↔ Q (.error (.failure f)) s := Iff.rfl

/-- The failure of a settled step is its answer. -/
def settled : Except Halt α → Except Halt (Except Failure α)
  | .ok a => .ok (.ok a)
  | .error (.failure f) => .ok (.error f)
  | .error h => .error h

@[simp] theorem yields_settle (x : EStateM Halt σ α)
    {Q : Except Halt (Except Failure α) → σ → Prop} :
    Yields (settle x) s Q ↔ Yields x s fun r t => Q (settled r) t := by
  rw [Yields, Yields, settle]
  cases x s with
  | ok a t => rfl
  | error h t => cases h <;> rfl

/-! ### What a step has answered -/

theorem Yields.of_ok {a : α} {t : σ} (h : Yields x s Q) (hx : x s = .ok a t) : Q (.ok a) t := by
  rwa [Yields, hx] at h

theorem Yields.of_error {e : ε} {t : σ} (h : Yields x s Q) (hx : x s = .error e t) :
    Q (.error e) t := by
  rwa [Yields, hx] at h

theorem bind_of_ok {a : α} {t : σ} (hx : x s = .ok a t) (f : α → EStateM ε σ β) :
    (x >>= f) s = f a t := by
  simp [bind, EStateM.bind, hx]

theorem bind_of_error {e : ε} {t : σ} (hx : x s = .error e t) (f : α → EStateM ε σ β) :
    (x >>= f) s = .error e t := by
  simp [bind, EStateM.bind, hx]

/-- Two steps go on alike where the first parts of both answer alike. -/
theorem bind_congr_at {x y : EStateM ε σ α} {f g : α → EStateM ε σ β} {s' : σ} (hxy : x s = y s')
    (hfg : ∀ a t, y s' = .ok a t → f a t = g a t) : (x >>= f) s = (y >>= g) s' := by
  cases hy : y s' with
  | ok a t => rw [bind_of_ok (hxy.trans hy), bind_of_ok hy, hfg a t hy]
  | error e t => rw [bind_of_error (hxy.trans hy), bind_of_error hy]

theorem settle_congr {x y : EStateM Halt σ α} {s' : σ} (h : x s = y s') :
    settle x s = settle y s' := by
  rw [settle, settle, h]

theorem settle_of_ok {x : EStateM Halt σ α} {a : α} {t : σ} (hx : x s = .ok a t) :
    settle x s = .ok (.ok a) t := by
  rw [settle, hx]

theorem settle_of_failure {x : EStateM Halt σ α} {f : Failure} {t : σ}
    (hx : x s = .error (.failure f) t) : settle x s = .ok (.error f) t := by
  rw [settle, hx]

/-- What breaks off is not settled. -/
theorem settle_of_break {x : EStateM Halt σ α} {e : Halt} {t : σ} (he : ∀ f, e ≠ .failure f)
    (hx : x s = .error e t) : settle x s = .error e t := by
  cases e with
  | failure f => exact absurd rfl (he f)
  | panic p | abandoned => rw [settle, hx]

theorem Halt.failure_or (e : Halt) : (∃ f, e = .failure f) ∨ ∀ f, e ≠ .failure f := by
  cases e <;> simp

end Yields

namespace Step

variable {κ α : Type} {s : Session κ}

def after (x : Step κ α) (s : Session κ) : Session κ :=
  match x s with
  | .ok _ t => t
  | .error _ t => t

def answer (x : Step κ α) (s : Session κ) : Except Halt α :=
  match x s with
  | .ok a _ => .ok a
  | .error e _ => .error e

theorem yields_iff {x : Step κ α} {Q : Except Halt α → Session κ → Prop} :
    Yields x s Q ↔ Q (answer x s) (after x s) := by
  rw [Yields, after, answer]
  cases x s with
  | ok a t => rfl
  | error h t => rfl

theorem yields_after_iff {x : Step κ α} {P : Session κ → Prop} :
    (Yields x s fun _ t => P t) ↔ P (after x s) :=
  yields_iff

/-- The failure of a guarded step, also where it breaks off. -/
def inHook : Except Halt α → Except Halt α
  | .error (.panic p) => .error (.failure p.inHook)
  | r => r

@[simp] theorem yields_guarded (x : Step κ α) {Q : Except Halt α → Session κ → Prop} :
    Yields (guarded x) s Q ↔ Yields x s fun r t => Q (inHook r) t := by
  rw [Yields, Yields, guarded]
  cases x s with
  | ok a t => rfl
  | error h t => cases h <;> rfl

@[simp] theorem yields_inWorld (x : Act (Event κ) α) {Q : Except Halt α → Session κ → Prop} :
    Yields (inWorld x) s Q ↔ Yields x s.world fun r w => Q r { s with world := w } := by
  rw [Yields, Yields, inWorld]
  cases x s.world with
  | ok a t => rfl
  | error h t => rfl

@[simp] theorem yields_theRun {Q : Except Halt (Run κ) → Session κ → Prop} :
    Yields theRun s Q ↔ Q (.ok s.run) s := Iff.rfl

@[simp] theorem yields_modifyRun (f : Run κ → Run κ) {Q : Except Halt Unit → Session κ → Prop} :
    Yields (modifyRun f) s Q ↔ Q (.ok ()) { s with run := f s.run } := Iff.rfl

end Step

/-! ## Steps in the world -/

namespace World

variable {ε : Type} {u v w : World ε}

/-- What no step in a world takes back: the horizon stays, and so does a cancelled token. -/
structure Later (w v : World ε) : Prop where
  horizon : v.horizon = w.horizon
  cancelled : ∀ t, w.tokens.isCancelled t → v.tokens.isCancelled t

/-- The journal stays as well. -/
structure Silent (w v : World ε) : Prop extends Later w v where
  journal : v.journal = w.journal

theorem Later.trans (h : Later u v) (h' : Later v w) : Later u w :=
  ⟨h'.horizon.trans h.horizon, fun t ht => h'.cancelled t (h.cancelled t ht)⟩

theorem Silent.refl (w : World ε) : Silent w w := ⟨⟨rfl, fun _ ht => ht⟩, rfl⟩

theorem Silent.trans (h : Silent u v) (h' : Silent v w) : Silent u w :=
  ⟨h.toLater.trans h'.toLater, h'.journal.trans h.journal⟩

theorem silent_cancel (w : World ε) (t : Token) (scope : Scope) :
    Silent w { w with tokens := w.tokens.cancel t scope } :=
  ⟨⟨rfl, fun _ ht => Tokens.isCancelled_cancel ht t scope⟩, rfl⟩

theorem silent_foldl_ring (alarms : List Alarm) (w : World ε) :
    Silent w (alarms.foldl ring w) := by
  induction alarms generalizing w with
  | nil => exact .refl w
  | cons a alarms ih => exact (silent_cancel w a.token a.scope).trans (ih _)

theorem silent_passUntil (w : World ε) (time : Nat) : Silent w (w.passUntil time) := by
  have hring := silent_foldl_ring (w.alarms.partition fun a => a.due ≤ time).1 w
  exact ⟨⟨hring.horizon, hring.cancelled⟩, hring.journal⟩

/-- A silent step that is left to itself: where somebody waits for the work for ever it has the
given answer, unless the token is cancelled after it and that is why it fails. -/
def Answers (x : Act ε Unit) (token : Token) (answer : Except Halt Unit) : Prop :=
  ∀ w, Yields x w fun r v => Silent w v ∧ (w.horizon = none →
    r = answer ∨ r = .error (.failure .cancelled) ∧ v.tokens.isCancelled token)

section Answers

variable {x y : Act ε Unit} {token : Token} {answer : Except Halt Unit}

/-- Where the token is not cancelled in the end, the answer is the given one. -/
theorem Answers.uncancelled (h : Answers x token answer) (w : World ε) : Yields x w fun r v =>
    Silent w v ∧ (w.horizon = none → v.tokens.isCancelled token = false → r = answer) := by
  refine (h w).mono fun r v ⟨hv, hr⟩ => ⟨hv, fun hw hlive => ?_⟩
  rcases hr hw with hanswer | ⟨-, hcancelled⟩
  · exact hanswer
  · simp [hlive] at hcancelled

theorem answers_pure (token : Token) : Answers (pure () : Act ε Unit) token (.ok ()) :=
  fun w => ⟨.refl w, fun _ => .inl rfl⟩

theorem answers_throw (token : Token) (h : Halt) :
    Answers (throw h : Act ε Unit) token (.error h) :=
  fun w => ⟨.refl w, fun _ => .inl rfl⟩

/-- Two steps answer as the first one does if it fails, and otherwise as the second one. -/
theorem Answers.bind {answer' : Except Halt Unit} (hx : Answers x token answer)
    (hy : Answers y token answer') :
    Answers (x >>= fun _ => y) token (answer >>= fun _ => answer') := by
  intro w
  rw [yields_bind]
  refine (hx w).mono fun r v ⟨hv, hr⟩ => ?_
  cases r with
  | error e =>
    refine ⟨hv, fun hw => (hr hw).imp ?_ id⟩
    rintro rfl
    rfl
  | ok a =>
    refine (hy v).mono fun r u ⟨hu, hr'⟩ => ⟨hv.trans hu, fun hw => ?_⟩
    rcases hr hw with rfl | ⟨hcancelled, -⟩
    · exact hr' (hv.horizon.trans hw)
    · cases hcancelled

end Answers

/-- Time that is let pass is not heard of, and it passes where somebody waits for the work for
ever. -/
theorem yields_goOn (time : Nat) (w : World ε) :
    Yields (goOn time) w fun r v => Silent w v ∧ (w.horizon = none → r = .ok ()) := by
  simp only [Yields, goOn]
  cases hhorizon : w.horizon with
  | none => exact ⟨silent_passUntil w time, fun _ => trivial⟩
  | some horizon =>
    by_cases htime : time < horizon
    · simp only [if_pos htime]
      exact ⟨silent_passUntil w time, fun _ => trivial⟩
    · simp only [if_neg htime]
      exact ⟨silent_passUntil w horizon, fun hnone => by cases hnone⟩

theorem yields_tick (w : World ε) :
    Yields tick w fun r v => Silent w v ∧ (w.horizon = none → r = .ok ()) := by
  have hpass := yields_goOn (w.clock + 1) { w with cpu := w.cpu + 1 }
  refine Yields.congr (hpass.mono fun _ _ h => ?_) rfl
  exact ⟨⟨⟨h.1.horizon, h.1.cancelled⟩, h.1.journal⟩, h.2⟩

theorem answers_tick (token : Token) : Answers (tick : Act ε Unit) token (.ok ()) :=
  fun w => (yields_tick w).mono fun _ _ h => ⟨h.1, fun hw => .inl (h.2 hw)⟩

theorem answers_goOn (time : World ε → Nat) (token : Token) :
    Answers (fun w => goOn (time w) w : Act ε Unit) token (.ok ()) := by
  intro w
  refine Yields.congr ((yields_goOn (time w) w).mono fun _ _ h => ?_) rfl
  exact ⟨h.1, fun hw => .inl (h.2 hw)⟩

theorem answers_sleep (nanos : Nat) (token : Token) :
    Answers (sleep nanos : Act ε Unit) token (.ok ()) :=
  answers_goOn (fun w => w.clock + nanos) token

/-- A look at a token fails if that is cancelled. -/
theorem answers_look (token : Token) :
    Answers (do if (← get).tokens.isCancelled token then fail .cancelled : Act ε Unit) token
      (.ok ()) := by
  intro w
  rw [yields_bind]
  by_cases hcancelled : w.tokens.isCancelled token
  · simp [hcancelled, World.Silent.refl]
  · simp [hcancelled, World.Silent.refl]

theorem answers_checkpoint (token : Token) :
    Answers (checkpoint token : Act ε Unit) token (.ok ()) :=
  (answers_tick token).bind (answers_look token)

theorem answers_pause (token : Token) (nanos : Nat) :
    Answers (pause token nanos : Act ε Unit) token (.ok ()) := by
  have hwait : Answers (do
      let w ← get
      if nanos ≠ 0 then
        let time := w.clock + nanos
        goOn ((w.wakeTime? token time).getD time)
        if (← get).tokens.isCancelled token then fail .cancelled : Act ε Unit) token (.ok ()) := by
    by_cases hnanos : nanos = 0
    · simp only [hnanos]
      exact answers_pure token
    · simp only [if_pos hnanos]
      exact (answers_goOn (fun w => (w.wakeTime? token (w.clock + nanos)).getD (w.clock + nanos))
        token).bind (answers_look token)
  exact (answers_checkpoint token).bind hwait

end World

/-- What a hook whose call does an action answers, unless its run is cancelled or nobody waits for
it any more. -/
def Action.answer : Action → Except Halt Unit
  | fail error => .error (.failure error.failure)
  | panic p => .error (.panic p)
  | andThen first second => do
    first.answer
    second.answer
  | _ => .ok ()

/-- **An action answers what it says**, or that its run is cancelled. -/
theorem Action.answers_perform {ε : Type} (token : Token) (a : Action) :
    World.Answers (a.perform token : Act ε Unit) token a.answer := by
  induction a with
  | succeed => exact World.answers_pure token
  | fail error => exact World.answers_throw token _
  | panic p => exact World.answers_throw token _
  | cancel scope => exact fun w => ⟨World.silent_cancel w token scope, fun _ => .inl rfl⟩
  | sleep nanos => exact World.answers_sleep nanos token
  | pause nanos => exact World.answers_pause token nanos
  | allocate bytes => exact fun w => ⟨⟨⟨rfl, fun _ ht => ht⟩, rfl⟩, fun _ => .inl rfl⟩
  | andThen first second ihFirst ihSecond => exact ihFirst.bind ihSecond

/-- A call of a hook takes a moment before it does its action. -/
theorem Action.answers_call {ε : Type} (token : Token) (a : Action) :
    World.Answers (do World.tick; a.perform token : Act ε Unit) token a.answer :=
  (World.answers_tick token).bind (a.answers_perform token)

/-! ## Steps of a session -/

/-- A call of a hook leaves the hooks that there are. -/
theorem Workload.hook?_next? {work work' : Workload} {stage : Stage} {action : Action}
    (h : work.next? stage = some (action, work')) (other : Stage) :
    (work'.hook? other).isSome = (work.hook? other).isSome := by
  obtain ⟨hook, hhook, heq⟩ := Option.map_eq_some_iff.1 h
  cases heq
  cases stage <;> cases other <;> simp_all [Workload.hook?, Workload.setHook]

/-- The names and the priorities of the collectors of a run. -/
def Run.labels {κ : Type} (r : Run κ) : List (String × Int32) :=
  r.collectors.map fun c => (c.name, c.priority)

/-- What no step of a session takes back: the configuration, the mode, the labels of the collectors,
which hooks there are, the horizon, and that a token is cancelled. -/
structure Session.Onward {κ : Type} (s t : Session κ) : Prop where
  world : s.world.Later t.world
  config : t.run.config = s.run.config
  mode : t.run.mode = s.run.mode
  labels : t.run.labels = s.run.labels
  hooks : ∀ stage, (t.work.hook? stage).isSome = (s.work.hook? stage).isSome

namespace Session

variable {κ : Type} {r s t : Session κ}

theorem Onward.refl (s : Session κ) : s.Onward s :=
  ⟨⟨rfl, fun _ ht => ht⟩, rfl, rfl, rfl, fun _ => rfl⟩

theorem Onward.trans (h : r.Onward s) (h' : s.Onward t) : r.Onward t :=
  ⟨h.world.trans h'.world, h'.config.trans h.config, h'.mode.trans h.mode,
    h'.labels.trans h.labels, fun stage => (h'.hooks stage).trans (h.hooks stage)⟩

/-- A token that is not cancelled at the end was not cancelled before. -/
theorem Onward.uncancelled (h : s.Onward t) {token : Token}
    (ht : t.world.tokens.isCancelled token = false) : s.world.tokens.isCancelled token = false := by
  by_contra hcancelled
  have hafter := h.world.cancelled token (by simpa using hcancelled)
  simp [ht] at hafter

theorem onward_world {w : World (Event κ)} (h : s.world.Later w) : s.Onward { s with world := w } :=
  ⟨h, rfl, rfl, rfl, fun _ => rfl⟩

theorem onward_run {run : Run κ} (hconfig : run.config = s.run.config)
    (hmode : run.mode = s.run.mode) (hlabels : run.labels = s.run.labels) :
    s.Onward { s with run := run } :=
  ⟨⟨rfl, fun _ ht => ht⟩, hconfig, hmode, hlabels, fun _ => rfl⟩

theorem onward_next {stage : Stage} {action : Action} {work : Workload}
    (h : s.work.next? stage = some (action, work)) : s.Onward { s with work := work } :=
  ⟨⟨rfl, fun _ ht => ht⟩, rfl, rfl, rfl, Workload.hook?_next? h⟩

end Session

namespace Step

variable {κ α β : Type}

/-- A step that takes back nothing of what no step takes back. -/
def Onwards (x : Step κ α) : Prop := ∀ s, Yields x s fun _ t => s.Onward t

theorem onwards_pure (a : α) : Onwards (pure a : Step κ α) := fun s => .refl s

theorem onwards_fail (f : Failure) : Onwards (fail f : Step κ α) := fun s => .refl s

theorem onwards_get : Onwards (get : Step κ (Session κ)) := fun s => .refl s

theorem onwards_theRun : Onwards (theRun : Step κ (Run κ)) := fun s => .refl s

theorem Onwards.bind {x : Step κ α} {f : α → Step κ β} (hx : Onwards x) (hf : ∀ a, Onwards (f a)) :
    Onwards (x >>= f) := by
  intro s
  rw [yields_bind]
  refine (hx s).mono ?_
  intro r t ht
  cases r with
  | ok a => exact (hf a t).mono fun _ _ hu => ht.trans hu
  | error h => exact ht

theorem onwards_settle {x : Step κ α} (hx : Onwards x) : Onwards (settle x : Step κ _) :=
  fun s => (yields_settle x).2 (hx s)

theorem onwards_guarded {x : Step κ α} (hx : Onwards x) : Onwards (guarded x) :=
  fun s => (yields_guarded x).2 (hx s)

theorem onwards_inWorld {x : Act (Event κ) α} (hx : ∀ w, Yields x w fun _ v => w.Later v) :
    Onwards (inWorld x) :=
  fun s => (yields_inWorld x).2 ((hx s.world).mono fun _ _ hw => Session.onward_world hw)

/-- A step in the world that is left to itself. -/
theorem onwards_answers {x : Act (Event κ) Unit} {token : Token} {answer : Except Halt Unit}
    (hx : World.Answers x token answer) : Onwards (inWorld x) :=
  onwards_inWorld fun w => (hx w).mono fun _ _ h => h.1.toLater

theorem onwards_log (event : Event κ) : Onwards (inWorld (World.log event)) :=
  onwards_inWorld fun _ => ⟨rfl, fun _ ht => ht⟩

theorem onwards_checkpoint (token : Token) :
    Onwards (inWorld (World.checkpoint token) : Step κ _) :=
  onwards_answers (World.answers_checkpoint token)

theorem onwards_modifyRun {f : Run κ → Run κ}
    (hf : ∀ r, (f r).config = r.config ∧ (f r).mode = r.mode ∧ (f r).labels = r.labels) :
    Onwards (modifyRun f) :=
  fun s => Session.onward_run (hf s.run).1 (hf s.run).2.1 (hf s.run).2.2

theorem onwards_callHook (token : Token) (stage : Stage) :
    Onwards (callHook token stage : Step κ Unit) := by
  intro s
  simp only [callHook, yields_bind, yields_get]
  cases hnext : s.work.next? stage with
  | none => exact .refl s
  | some called =>
    obtain ⟨action, work⟩ := called
    have hcall : Onwards (do
        inWorld (World.log (.hook stage))
        guarded (inWorld do
          World.tick
          action.perform token) : Step κ Unit) :=
      (onwards_log _).bind fun _ => onwards_guarded (onwards_answers (action.answers_call token))
    exact (hcall { s with work := work }).mono fun _ _ ht => (Session.onward_next hnext).trans ht

end Step

/-! ## Steps of a run that nobody cancels -/

/-- What a step yields, unless a token is cancelled in the end. -/
def Uncancelled {κ α : Type} (token : Token) (x : Step κ α) (s : Session κ)
    (Q : Except Halt α → Session κ → Prop) : Prop :=
  Yields x s fun r t => t.world.tokens.isCancelled token = false → Q r t

namespace Uncancelled

open Step

variable {κ α β : Type} {token : Token} {x : Step κ α} {s : Session κ}
  {P : Except Halt α → Session κ → Prop}

theorem mono {Q : Except Halt α → Session κ → Prop} (h : Uncancelled token x s P)
    (hPQ : ∀ r t, P r t → Q r t) : Uncancelled token x s Q :=
  Yields.mono h fun r t ht hlive => hPQ r t (ht hlive)

/-- It needs to be shown only where the token is not cancelled before. -/
theorem of_uncancelled (hx : Onwards x)
    (h : s.world.tokens.isCancelled token = false → Uncancelled token x s P) :
    Uncancelled token x s P := by
  by_cases hs : s.world.tokens.isCancelled token = false
  · exact h hs
  · exact (hx s).mono fun r t ht hlive => absurd (ht.uncancelled hlive) hs

/-- A step that looks at its run first. -/
theorem of_theRun {f : Run κ → Step κ α} (h : Uncancelled token (f s.run) s P) :
    Uncancelled token (theRun >>= f) s P := by
  rw [Uncancelled, yields_bind, yields_theRun]
  exact h

theorem bind {f : α → Step κ β} {Q : Except Halt β → Session κ → Prop}
    (hx : Uncancelled token x s P) (hf : ∀ a, Onwards (f a))
    (hok : ∀ a t, P (.ok a) t → Uncancelled token (f a) t Q)
    (herror : ∀ e t, P (.error e) t → Q (.error e) t) : Uncancelled token (x >>= f) s Q := by
  rw [Uncancelled, yields_bind]
  refine Yields.mono hx ?_
  intro r t ht
  cases r with
  | ok a => exact of_uncancelled (hf a) fun hlive => hok a t (ht hlive)
  | error e => exact fun hlive => herror e t (ht hlive)

/-- A settled step that ends with a failure where it does not answer. -/
theorem bind_settle {f : Except Failure α → Step κ β} {Q : Except Halt β → Session κ → Prop}
    (hx : Uncancelled token x s P) (hf : ∀ r, Onwards (f r))
    (hok : ∀ a t, P (.ok a) t → Uncancelled token (f (.ok a)) t Q)
    (herror : ∀ e t, P (.error e) t →
      ∃ failure, e = .failure failure ∧ Uncancelled token (f (.error failure)) t Q) :
    Uncancelled token (settle x >>= f) s Q := by
  refine bind (P := fun r t => ∃ r', r = settled r' ∧ P r' t)
    ((yields_settle x).2 (Yields.mono hx fun r t ht hlive => ⟨r, rfl, ht hlive⟩)) hf ?_ ?_
  · rintro a t ⟨r, hr, ht⟩
    cases r with
    | ok b =>
      cases hr
      exact hok b t ht
    | error e =>
      obtain ⟨failure, rfl, hclose⟩ := herror e t ht
      cases hr
      exact hclose
  · rintro e t ⟨r, hr, ht⟩
    cases r with
    | ok b => cases hr
    | error e' =>
      obtain ⟨failure, rfl, -⟩ := herror e' t ht
      cases hr

end Uncancelled

/-! ## What a run is put together from -/

namespace Step

variable {κ : Type}

/-- A property of steps that a step has if its parts have it. -/
structure Composes (P : (α : Type) → Step κ α → Prop) : Prop where
  pure : ∀ {α : Type} (a : α), P α (pure a)
  fail : ∀ {α : Type} (f : Failure), P α (Gauge.fail f)
  theRun : P (Run κ) theRun
  bind : ∀ {α β : Type} {x : Step κ α} {f : α → Step κ β},
    P α x → (∀ a, P β (f a)) → P β (x >>= f)
  settle : ∀ {α : Type} {x : Step κ α}, P α x → P (Except Failure α) (Gauge.settle x)

theorem Composes.ofResult {P : (α : Type) → Step κ α → Prop} (h : Composes P) {α : Type}
    (r : Except Failure α) : P α (Gauge.ofResult r) := by
  cases r with
  | ok a => exact h.pure a
  | error f => exact h.fail f

end Step

namespace Run

open Step

variable {κ : Type} [Device κ] {token : Token} {P : (α : Type) → Step κ α → Prop}

/-- The parts that a run with a token is put together from have such a property, so all of the run
has it. -/
structure Composes (token : Token) (P : (α : Type) → Step κ α → Prop) : Prop
    extends Step.Composes P where
  checkpoint : P Unit (inWorld (World.checkpoint token))
  callHook : ∀ stage, P Unit (callHook token stage)
  prepare : P Unit prepare
  start : ∀ mode, P Unit (start mode)
  stop : P Unit stop
  abort : P Unit abort
  noteEarly : P Unit (modifyRun fun r => { r with earlyStopped := true })
  finalize : ∀ failure, P Unit (finalize failure)

namespace Composes

theorem repeatBody (h : Composes token P) (first : Bool) (n : Nat) :
    P Unit (repeatBody token first n) := by
  induction n generalizing first with
  | zero => exact h.pure ()
  | succ n ih =>
    have hrest : P Unit (do Step.callHook token .body; Run.repeatBody token false n) :=
      h.bind (h.callHook .body) fun _ => ih false
    cases first with
    | true => exact hrest
    | false => exact h.bind h.checkpoint fun _ => hrest

theorem runBody (h : Composes token P) : P Unit (runBody token) :=
  h.bind h.theRun fun _ => h.repeatBody true _

theorem warmupFor (h : Composes token P) (n : Nat) : P Unit (warmupFor token n) := by
  induction n with
  | zero => exact h.pure ()
  | succ n ih =>
    exact h.bind h.checkpoint fun _ => h.bind (h.callHook .before) fun _ =>
      h.bind h.runBody fun _ => h.bind (h.callHook .after) fun _ => ih

theorem warmup (h : Composes token P) : P Unit (warmup token) :=
  h.bind h.theRun fun _ => h.warmupFor _

theorem settledBody (h : Composes token P) (r : Except Failure Unit) : P Unit (match r with
    | .error failure => do
      Run.abort
      Gauge.fail failure
    | .ok () => do
      Run.stop
      Step.callHook token .after) := by
  cases r with
  | error failure => exact h.bind h.abort fun _ => h.fail failure
  | ok _ => exact h.bind h.stop fun _ => h.callHook .after

theorem iterate (h : Composes token P) : P Unit (iterate token) :=
  h.bind (h.callHook .before) fun _ => h.bind h.theRun fun r => h.bind (h.start r.mode) fun _ =>
    h.bind (h.settle h.runBody) h.settledBody

theorem unlessConverged (h : Composes token P) {x : Step κ Unit} (hx : P Unit x)
    (iteration : Nat) : P Unit (do
      if (← Step.theRun).converged iteration then
        modifyRun fun r => { r with earlyStopped := true }
      else x) := by
  refine h.bind h.theRun fun r => ?_
  split
  · exact h.noteEarly
  · exact hx

theorem measureFrom (h : Composes token P) (iteration n : Nat) :
    P Unit (measureFrom token iteration n) := by
  induction n generalizing iteration with
  | zero => exact h.pure ()
  | succ n ih =>
    exact h.bind h.checkpoint fun _ => h.bind h.iterate fun _ =>
      h.unlessConverged (ih (iteration + 1)) iteration

theorem measure (h : Composes token P) : P Unit (measure token) :=
  h.bind h.theRun fun _ => h.measureFrom 1 _

theorem mainLoop (h : Composes token P) : P Unit (mainLoop token) := by
  refine h.bind (h.settle h.measure) fun r => ?_
  cases r with
  | ok _ => exact h.pure ()
  | error f => exact h.finalize (some f)

theorem checkOwnCeilings (h : Composes token P) : P Unit checkOwnCeilings := by
  refine h.bind h.theRun fun r => ?_
  dsimp only
  split
  · refine h.bind h.theRun fun r => ?_
    cases r.reader with
    | error f => exact h.fail f
    | ok reader => exact h.ofResult _
  · exact h.pure ()

theorem execute (h : Composes token P) : P Unit (execute token) := by
  refine h.bind h.prepare fun _ => h.bind (h.settle h.warmup) fun r => ?_
  cases r with
  | error f => exact h.finalize (some f)
  | ok _ =>
    exact h.bind h.mainLoop fun _ => h.bind (h.finalize none) fun _ => h.checkOwnCeilings

end Composes

end Run

/-! ## Steps of a run -/

/-- A user value that is refused changes nothing. -/
theorem Writer.attach_of_error {w : Writer} {name : String} {value : Int64} {fault : StoreFault}
    (h : (w.attach name value).1 = .error fault) : (w.attach name value).2 = w := by
  rw [attach] at h ⊢
  cases hlatest : w.latest? with
  | none => rfl
  | some x =>
    by_cases hheld : x.values.contains name
    · simp [hheld]
    · simp [hlatest, hheld] at h

namespace Run

open Step

variable {κ : Type}

/-- A collector keeps its label when its device is replaced. -/
theorem labels_set {r : Run κ} {i : Nat} {c : Collector κ} (h : r.collectors[i]? = some c)
    (device : κ) :
    labels { r with collectors := r.collectors.set i { c with device := device } } = r.labels := by
  have hlabel : (r.collectors.map fun c => (c.name, c.priority))[i]? =
      some (c.name, c.priority) := by
    rw [List.getElem?_map, h]
    rfl
  obtain ⟨hi, hc⟩ := List.getElem?_eq_some_iff.1 hlabel
  rw [labels, List.map_set, ← hc]
  exact List.set_getElem_self hi

theorem onwards_prepare : Onwards (prepare : Step κ Unit) :=
  onwards_modifyRun fun _ => ⟨rfl, rfl, rfl⟩

variable [Device κ]

theorem onwards_callCollector (call : Call) (i : Nat) :
    Onwards (callCollector call i : Step κ Unit) := by
  intro s
  simp only [callCollector, yields_bind, yields_theRun]
  cases hc : s.run.collectors[i]? with
  | none => exact .refl s
  | some c =>
    simp only [yields_bind, yields_inWorld, World.log, yields_modify]
    refine (World.yields_tick _).mono ?_
    intro r w hw
    have hquiet : s.Onward { s with world := w } :=
      Session.onward_world ⟨hw.1.horizon, hw.1.cancelled⟩
    cases r with
    | error h => exact hquiet
    | ok _ =>
      simp only [yields_get]
      cases call.apply c.device w.readings with
      | error p => exact hquiet
      | ok device => exact hquiet.trans (Session.onward_run rfl rfl (labels_set hc device))

theorem callCollectors_cons (call : Call) (i : Nat) (order : List Nat) :
    (callCollectors call (i :: order) : Step κ Unit) =
      callCollector call i >>= fun _ => callCollectors call order := rfl

theorem onwards_callCollectors (call : Call) (order : List Nat) :
    Onwards (callCollectors call order : Step κ Unit) := by
  induction order with
  | nil => exact onwards_pure ()
  | cons i order ih => exact (onwards_callCollector call i).bind fun _ => ih

/-- Calls of collectors leave everything of a run but the collectors. -/
theorem frame_callCollectors (call : Call) (order : List Nat) (s : Session κ) :
    Yields (callCollectors call order) s fun _ t =>
      t.run = { s.run with collectors := t.run.collectors } := by
  induction order generalizing s with
  | nil => exact rfl
  | cons i order ih =>
    have hcall : Yields (callCollector call i) s fun _ t =>
        t.run = { s.run with collectors := t.run.collectors } := by
      simp only [callCollector, yields_bind, yields_theRun]
      cases hc : s.run.collectors[i]? with
      | none => exact rfl
      | some c =>
        simp only [yields_bind, yields_inWorld, World.log, yields_modify]
        refine (World.yields_tick _).mono ?_
        intro r w _
        cases r with
        | error h => exact trivial
        | ok _ =>
          simp only [yields_get]
          cases call.apply c.device w.readings <;> exact rfl
    rw [callCollectors_cons, yields_bind]
    refine hcall.mono ?_
    intro r t ht
    cases r with
    | error h => exact ht
    | ok _ =>
      refine (ih t).mono ?_
      intro r u hu
      rw [hu, ht]

theorem onwards_start (mode : CollectionMode) : Onwards (start mode : Step κ Unit) := by
  have hbracket (w : Writer) (order : List Nat) : Onwards (do
      modifyRun fun r => { r with store := .writing w }
      callCollectors mode.call order
      modifyRun fun r => { r with collecting := true } : Step κ Unit) :=
    (onwards_modifyRun fun _ => by exact ⟨rfl, rfl, rfl⟩).bind fun _ =>
      (onwards_callCollectors _ _).bind fun _ => onwards_modifyRun fun _ => ⟨rfl, rfl, rfl⟩
  refine onwards_theRun.bind ?_
  intro r
  split
  · exact onwards_fail _
  · split
    · exact (onwards_fail _).bind fun _ => onwards_get.bind fun _ => hbracket _ _
    · exact onwards_get.bind fun _ => hbracket _ _
  · exact onwards_fail _

theorem onwards_stopCollectors : Onwards (stopCollectors : Step κ Unit) :=
  onwards_theRun.bind fun _ => (onwards_callCollectors _ _).bind fun _ =>
    onwards_modifyRun fun _ => ⟨rfl, rfl, rfl⟩

/-- A sample goes to the writer, and only one that is accepted is counted. -/
theorem yields_writeSample (w : Writer) (s : Session κ) :
    Yields (writeSample w) s fun r t =>
      r = .ok () ∧ (w.write (values s.run)).1 = .ok () ∧
        t = { s with run := { s.run with
          store := .writing (w.write (values s.run)).2
          executions := (w.write (values s.run)).2.count } } ∨
      ∃ fault, r = .error (.failure (.store fault)) ∧ (w.write (values s.run)).1 = .error fault ∧
        t = { s with run := { s.run with store := .writing (w.write (values s.run)).2 } } := by
  simp only [writeSample, yields_bind, yields_theRun]
  cases w.write (values s.run) with
  | mk result w' =>
    cases result with
    | ok _ => exact .inl ⟨rfl, rfl, rfl⟩
    | error fault => exact .inr ⟨fault, rfl, rfl, rfl⟩

theorem onwards_writeSample (w : Writer) : Onwards (writeSample w : Step κ Unit) := by
  intro s
  refine (yields_writeSample w s).mono ?_
  rintro r t (⟨-, -, rfl⟩ | ⟨fault, -, -, rfl⟩) <;> exact Session.onward_run rfl rfl rfl

theorem onwards_stop : Onwards (stop : Step κ Unit) := by
  have hrest (w : Writer) : Onwards (do stopCollectors; writeSample w : Step κ Unit) :=
    onwards_stopCollectors.bind fun _ => onwards_writeSample w
  refine onwards_theRun.bind ?_
  intro r
  split
  · split
    · exact (onwards_fail _).bind fun _ => hrest _
    · exact hrest _
  · exact onwards_fail _

omit [Device κ] in
/-- A user value is accepted where the store takes it and no collector has its name; otherwise the
operation fails and nothing changes. -/
theorem yields_attach (name : String) (value : Int64) (s : Session κ) :
    Yields (attach name value) s fun r t =>
      (∃ w, s.run.store = .writing w ∧ name ∉ s.run.names ∧ r = .ok () ∧
        (w.attach name value).1 = .ok () ∧
        t = { s with run := { s.run with store := .writing (w.attach name value).2 } }) ∨
      ∃ f, r = .error (.failure f) ∧ t = s := by
  simp only [attach, yields_bind, yields_theRun]
  by_cases hname : name ∈ s.run.names
  · simp only [if_pos hname, yields_bind, yields_fail]
    exact .inr ⟨_, rfl, trivial⟩
  · simp only [if_neg hname]
    split
    · next w hstore =>
      cases hattached : w.attach name value with
      | mk result w' =>
        cases result with
        | ok _ => exact .inl ⟨w, hstore, hname, rfl, by rw [hattached], by rw [hattached]⟩
        | error fault =>
          have hkept : w' = w := by
            have hw' := Writer.attach_of_error (w := w) (by rw [hattached])
            rwa [hattached] at hw'
          refine .inr ⟨_, rfl, ?_⟩
          subst hkept
          change { s with run := { s.run with store := RunStore.writing w' } } = s
          rw [← hstore]
    · exact .inr ⟨_, rfl, rfl⟩

omit [Device κ] in
theorem onwards_attach (name : String) (value : Int64) :
    Onwards (attach name value : Step κ Unit) := by
  intro s
  refine (yields_attach name value s).mono ?_
  rintro r t (⟨w, -, -, -, -, rfl⟩ | ⟨f, -, rfl⟩)
  · exact Session.onward_run rfl rfl rfl
  · exact .refl _

theorem onwards_abort : Onwards (abort : Step κ Unit) := by
  refine onwards_theRun.bind ?_
  intro r
  split
  · exact onwards_stopCollectors
  · exact onwards_pure ()

theorem onwards_finalize (failure : Option Failure) : Onwards (finalize failure : Step κ Unit) := by
  refine onwards_abort.bind fun _ => onwards_theRun.bind fun r => ?_
  split
  · refine (onwards_modifyRun fun _ => by exact ⟨rfl, rfl, rfl⟩).bind fun _ => ?_
    cases failure with
    | none => exact onwards_pure ()
    | some f => exact onwards_fail f
  · exact (onwards_modifyRun fun _ => by exact ⟨rfl, rfl, rfl⟩).bind fun _ => onwards_fail _

/-- The parts that a run is put together from take nothing back. -/
theorem composes_onwards (token : Token) :
    Composes (κ := κ) token fun _ x => Onwards x where
  pure := onwards_pure
  fail := onwards_fail
  theRun := onwards_theRun
  bind := Onwards.bind
  settle := onwards_settle
  checkpoint := onwards_checkpoint token
  callHook := onwards_callHook token
  prepare := onwards_prepare
  start := onwards_start
  stop := onwards_stop
  abort := onwards_abort
  noteEarly := onwards_modifyRun fun _ => ⟨rfl, rfl, rfl⟩
  finalize := onwards_finalize

theorem onwards_repeatBody (token : Token) (first : Bool) (n : Nat) :
    Onwards (repeatBody token first n : Step κ Unit) :=
  (composes_onwards token).repeatBody first n

theorem onwards_runBody (token : Token) : Onwards (runBody token : Step κ Unit) :=
  (composes_onwards token).runBody

theorem onwards_warmupFor (token : Token) (n : Nat) :
    Onwards (warmupFor token n : Step κ Unit) :=
  (composes_onwards token).warmupFor n

theorem onwards_settledBody (token : Token) (r : Except Failure Unit) : Onwards (match r with
    | .error failure => do
      abort
      fail failure
    | .ok () => do
      stop
      callHook token .after : Step κ Unit) :=
  (composes_onwards token).settledBody r

theorem onwards_unlessConverged {x : Step κ Unit} (hx : Onwards x) (iteration : Nat) :
    Onwards (do
      if (← theRun).converged iteration then modifyRun fun r => { r with earlyStopped := true }
      else x) :=
  (composes_onwards ⟨0, []⟩).unlessConverged hx iteration

theorem onwards_measureFrom (token : Token) (iteration n : Nat) :
    Onwards (measureFrom token iteration n : Step κ Unit) :=
  (composes_onwards token).measureFrom iteration n

theorem onwards_mainLoop (token : Token) : Onwards (mainLoop token : Step κ Unit) :=
  (composes_onwards token).mainLoop

theorem onwards_checkOwnCeilings : Onwards (checkOwnCeilings : Step κ Unit) :=
  (composes_onwards ⟨0, []⟩).checkOwnCeilings

/-- **A whole run takes nothing back**: it keeps its configuration, its mode, its collectors and its
hooks, and a token that is cancelled stays so. -/
theorem onwards_execute (token : Token) : Onwards (execute token : Step κ Unit) :=
  (composes_onwards token).execute

end Run

end Gauge
