import Gauge.Proofs.Run.Steps

/-!
# A run without its cancellations

A session is spared when nothing cancels its token: its hooks do not, no alarm does, and its flags
are not raised.  Two runs, of a session and of the spared one, agree at every step, unless the first
one answers that it was cancelled.

## Main definitions

* `Session.spared` — a session without the cancellations of a token.
* `Agrees` — two steps agree, unless the first one escapes with a failure.
* `Session.Spares` — a session is another one without the cancellations of a token.

## Main statements

* `Action.mirrors` — an action and the same action without its cancellations agree.
* `Run.mirrors_execute` — whole runs agree.
-/

namespace Gauge

/-! ## Without cancellations -/

/-- An action without its cancellations. -/
def Action.spared : Action → Action
  | cancel _ => succeed
  | andThen first second => andThen first.spared second.spared
  | a => a

def Hook.spared (hook : Hook) : Hook := { hook with script := fun k => (hook.script k).spared }

def Workload.spared (work : Workload) : Workload where
  before := work.before.map Hook.spared
  body := work.body.spared
  after := work.after.map Hook.spared

/-- The cells of all tokens, with none raised that a token looks at. -/
def Tokens.spared (s : Tokens) (token : Token) : Tokens where
  cells := s.cells.mapIdx fun i c => if i ∈ token.path then { c with raised := false } else c

/-- A world where nobody else cancels a token or one above it. -/
def World.spared {ε : Type} (w : World ε) (token : Token) : World ε :=
  { w with
    tokens := w.tokens.spared token
    alarms := w.alarms.filter fun a => a.token.cell ∉ token.path }

def Session.spared {κ : Type} (s : Session κ) (token : Token) : Session κ :=
  { s with world := s.world.spared token, work := s.work.spared }

/-! ## Steps that agree -/

section Agrees

variable {σ σ' α β : Type} {E E' : Halt → Prop} {R : σ → σ' → Prop} {x : EStateM Halt σ α}
  {y : EStateM Halt σ' α} {s : σ} {s' : σ'}

/-- Two steps agree: both answer or fail alike, and leave related states.  The first one may escape
with a failure. -/
def Agrees (E : Halt → Prop) (R : σ → σ' → Prop) (x : EStateM Halt σ α) (y : EStateM Halt σ' α)
    (s : σ) (s' : σ') : Prop :=
  match x s with
  | .ok a t => ∃ t', y s' = .ok a t' ∧ R t t'
  | .error e t => E e ∨ ∃ t', y s' = .error e t' ∧ R t t'

theorem agrees_pure (a : α) (h : R s s') :
    Agrees E R (pure a : EStateM Halt σ α) (pure a : EStateM Halt σ' α) s s' := ⟨s', rfl, h⟩

theorem agrees_throw (e : Halt) (h : R s s') :
    Agrees E R (throw e : EStateM Halt σ α) (throw e : EStateM Halt σ' α) s s' :=
  .inr ⟨s', rfl, h⟩

theorem agrees_modify {f : σ → σ} {g : σ' → σ'} (h : R (f s) (g s')) :
    Agrees E R (modify f : EStateM Halt σ PUnit) (modify g : EStateM Halt σ' PUnit) s s' :=
  ⟨g s', rfl, h⟩

theorem Agrees.bind {f : α → EStateM Halt σ β} {g : α → EStateM Halt σ' β}
    (h : Agrees E R x y s s') (hfg : ∀ a t t', R t t' → Agrees E R (f a) (g a) t t') :
    Agrees E R (x >>= f) (y >>= g) s s' := by
  rw [Agrees] at h
  cases hx : x s with
  | ok a t =>
    rw [hx] at h
    obtain ⟨t', hy, ht⟩ := h
    rw [Agrees, bind_of_ok hx, bind_of_ok hy]
    exact hfg a t t' ht
  | error e t =>
    rw [hx] at h
    rw [Agrees, bind_of_error hx]
    refine h.imp id ?_
    rintro ⟨t', hy, ht⟩
    exact ⟨t', bind_of_error hy g, ht⟩

theorem Agrees.congr {x₁ : EStateM Halt σ α} {y₁ : EStateM Halt σ' α} {s₁ : σ} {s₁' : σ'}
    (h : Agrees E R x₁ y₁ s₁ s₁') (hx : x s = x₁ s₁) (hy : y s' = y₁ s₁') :
    Agrees E R x y s s' := by
  rwa [Agrees, hx, hy]

theorem Agrees.mono (h : Agrees E R x y s s') (hE : ∀ e, E e → E' e) : Agrees E' R x y s s' := by
  rw [Agrees] at h ⊢
  cases hx : x s with
  | ok a t =>
    rw [hx] at h
    exact h
  | error e t =>
    rw [hx] at h
    exact h.imp (hE e) id

/-- The first step escapes if it ends with one of the failures. -/
theorem agrees_of_escapes (h : Yields x s fun r _ => ∃ e, r = .error e ∧ E e) :
    Agrees E R x y s s' := by
  rw [Yields] at h
  rw [Agrees]
  cases hx : x s with
  | ok a t =>
    rw [hx] at h
    obtain ⟨e, he, -⟩ := h
    cases he
  | error e t =>
    rw [hx] at h
    obtain ⟨e', he, hE⟩ := h
    cases he
    exact .inl hE

end Agrees

/-! ## Worlds -/

namespace Tokens

/-- The tokens after the cancellations of alarms. -/
def afterAlarms (s : Tokens) (alarms : List Alarm) : Tokens :=
  alarms.foldl (fun s a => s.cancel a.token a.scope) s

theorem size_afterAlarms (s : Tokens) (alarms : List Alarm) :
    (s.afterAlarms alarms).cells.size = s.cells.size := by
  induction alarms generalizing s with
  | nil => rfl
  | cons a alarms ih => exact (ih _).trans (s.size_cancel a.token a.scope)

theorem isCancelled_afterAlarms {token : Token} {alarms : List Alarm}
    (h : ∀ a ∈ alarms, a.token.cell ∉ token.path) (s : Tokens) :
    (s.afterAlarms alarms).isCancelled token = s.isCancelled token := by
  induction alarms generalizing s with
  | nil => rfl
  | cons a alarms ih =>
    exact (ih (fun b hb => h b (List.mem_cons_of_mem a hb)) _).trans
      (isCancelled_cancel_of_not_mem (h a List.mem_cons_self) a.scope)

/-- An alarm that rings cancels the tokens below its own. -/
theorem isCancelled_afterAlarms_of_mem {token : Token} {alarms : List Alarm} {a : Alarm}
    (ha : a ∈ alarms) (hcell : a.token.cell ∈ token.path) {s : Tokens}
    (hknown : a.token.cell < s.cells.size) : (s.afterAlarms alarms).isCancelled token := by
  have hkept (rest : List Alarm) {s : Tokens} (h : s.isCancelled token) :
      (s.afterAlarms rest).isCancelled token := by
    induction rest generalizing s with
    | nil => exact h
    | cons b rest ih => exact ih (isCancelled_cancel h b.token b.scope)
  induction alarms generalizing s with
  | nil => cases ha
  | cons b alarms ih =>
    rcases List.mem_cons.1 ha with rfl | ha
    · exact hkept alarms (isCancelled_cancel_of_mem hcell hknown a.scope)
    · exact ih ha (by rwa [size_cancel])

theorem isCancelled_spared (s : Tokens) (token : Token) :
    (s.spared token).isCancelled token = false := by
  rw [isCancelled, List.any_eq_false]
  intro i hi
  cases hcell : s.cells[i]? with
  | none => simp [cell, spared, hcell]
  | some c => simp [cell, spared, hcell, hi]

end Tokens

namespace World

variable {ε : Type} {w w' : World ε} {token : Token}

/-- A world is another one without the cancellations of a token.  The token has its cells, and
somebody waits for the work for ever. -/
structure Spares (token : Token) (w w' : World ε) : Prop where
  world : w' = { w with
    tokens := w'.tokens
    alarms := w.alarms.filter fun a => a.token.cell ∉ token.path }
  live : w'.tokens.isCancelled token = false
  known : ∀ i ∈ token.path, i < w.tokens.cells.size
  horizon : w.horizon = none

/-- Two steps agree, unless the first one answers that it was cancelled. -/
def Mirrors (token : Token) (x y : Act ε Unit) : Prop :=
  ∀ w w', Spares token w w' → Agrees (· = .failure .cancelled) (Spares token) x y w w'

theorem mirrors_pure : Mirrors token (pure () : Act ε Unit) (pure ()) :=
  fun _ _ h => agrees_pure () h

theorem mirrors_throw (e : Halt) : Mirrors token (throw e : Act ε Unit) (throw e) :=
  fun _ _ h => agrees_throw e h

theorem Mirrors.bind {x y x' y' : Act ε Unit} (hx : Mirrors token x x') (hy : Mirrors token y y') :
    Mirrors token (x >>= fun _ => y) (x' >>= fun _ => y') :=
  fun w w' h => (hx w w' h).bind fun _ => hy

/-- The alarms that ring change nothing but the tokens. -/
theorem foldl_ring (alarms : List Alarm) (w : World ε) :
    alarms.foldl ring w = { w with tokens := w.tokens.afterAlarms alarms } := by
  induction alarms generalizing w with
  | nil => rfl
  | cons a alarms ih => exact ih (w.ring a)

/-- Time that passes makes the alarms ring that are due, and leaves the others. -/
theorem passUntil_eq (w : World ε) (time : Nat) : w.passUntil time =
    { w with
      tokens := w.tokens.afterAlarms (w.alarms.filter fun a => a.due ≤ time)
      alarms := w.alarms.filter fun a => !decide (a.due ≤ time)
      clock := max w.clock time } := by
  simp only [passUntil, List.partition_eq_filter_filter, foldl_ring]
  rfl

theorem Spares.pass (h : Spares token w w') (time : Nat) :
    Spares token (w.passUntil time) (w'.passUntil time) where
  world := by
    rw [h.world]
    simp only [passUntil, List.partition_eq_filter_filter, foldl_ring, List.filter_filter]
    congr 2
    funext a
    exact Bool.and_comm _ _
  live := by
    rw [h.world]
    simp only [passUntil, List.partition_eq_filter_filter, foldl_ring]
    rw [Tokens.isCancelled_afterAlarms]
    · exact h.live
    · intro a ha
      simpa using (List.mem_filter.1 (List.mem_filter.1 ha).1).2
  known := by
    simp only [passUntil, List.partition_eq_filter_filter, foldl_ring, Tokens.size_afterAlarms]
    exact h.known
  horizon := by
    simp only [passUntil, foldl_ring]
    exact h.horizon

/-- Time passes alike. -/
theorem Spares.goOn (h : Spares token w w') (time : Nat) :
    Agrees (· = .failure .cancelled) (Spares token) (goOn time : Act ε Unit) (goOn time) w w' := by
  have hhorizon : w'.horizon = none := by
    rw [h.world]
    exact h.horizon
  have hgo : World.goOn time w = .ok () (w.passUntil time) := by rw [World.goOn, h.horizon]
  rw [Agrees, hgo]
  exact ⟨w'.passUntil time, by rw [World.goOn, hhorizon], h.pass time⟩

/-- A change of the counters and of the journal. -/
theorem Spares.update {f : World ε → World ε} (h : Spares token w w')
    (hf : ∀ v tokens alarms, f { v with tokens := tokens, alarms := alarms } =
      { f v with tokens := tokens, alarms := alarms })
    (hhorizon : (f w).horizon = w.horizon) : Spares token (f w) (f w') := by
  have hkept (v : World ε) : (f v).tokens = v.tokens ∧ (f v).alarms = v.alarms := by
    have hv : f v = { f v with tokens := v.tokens, alarms := v.alarms } := hf v v.tokens v.alarms
    exact ⟨(congrArg World.tokens hv).trans rfl, (congrArg World.alarms hv).trans rfl⟩
  exact
    { world := by
        rw [(hkept w').1, (hkept w).2, ← hf w, ← h.world]
      live := by rw [(hkept w').1]; exact h.live
      known := by rw [(hkept w).1]; exact h.known
      horizon := hhorizon.trans h.horizon }

theorem Spares.clock (h : Spares token w w') : w'.clock = w.clock := by rw [h.world]

theorem mirrors_tick : Mirrors token (tick : Act ε Unit) tick := by
  intro w w' h
  have hnow := h.update (f := fun w => { w with cpu := w.cpu + 1 }) (fun _ _ _ => rfl) rfl
  refine (hnow.goOn (w.clock + 1)).congr rfl ?_
  rw [← h.clock]
  rfl

theorem mirrors_goOn (time : World ε → Nat) (htime : ∀ w w', Spares token w w' → time w' = time w) :
    Mirrors token (fun w => goOn (time w) w : Act ε Unit) (fun w => goOn (time w) w) :=
  fun w w' h => (h.goOn (time w)).congr rfl (by rw [htime w w' h])

theorem mirrors_sleep (nanos : Nat) : Mirrors token (sleep nanos : Act ε Unit) (sleep nanos) :=
  mirrors_goOn (fun w => w.clock + nanos) fun _ _ h => by rw [h.clock]

theorem look_eq (token : Token) (w : World ε) :
    (do if (← get).tokens.isCancelled token then fail .cancelled : Act ε Unit) w =
      if w.tokens.isCancelled token then .error (.failure .cancelled) w else .ok () w := by
  have hlook : (do if (← get).tokens.isCancelled token then fail .cancelled : Act ε Unit) w =
      (if w.tokens.isCancelled token then fail .cancelled else pure () : Act ε Unit) w := rfl
  rw [hlook]
  split <;> rfl

/-- Only the first world can find the token cancelled. -/
theorem mirrors_look : Mirrors token
    (do if (← get).tokens.isCancelled token then fail .cancelled : Act ε Unit)
    (do if (← get).tokens.isCancelled token then fail .cancelled) := by
  intro w w' h
  cases hcancelled : w.tokens.isCancelled token with
  | true =>
    rw [Agrees, look_eq, if_pos hcancelled]
    exact .inl rfl
  | false =>
    rw [Agrees, look_eq, hcancelled]
    exact ⟨w', by rw [look_eq, h.live]; rfl, h⟩

theorem mirrors_checkpoint : Mirrors token (checkpoint token : Act ε Unit) (checkpoint token) :=
  mirrors_tick.bind mirrors_look

/-- Whoever pauses is woken only by alarms of the first world, and then finds the token
cancelled. -/
theorem mirrors_pause (nanos : Nat) :
    Mirrors token (pause token nanos : Act ε Unit) (pause token nanos) := by
  refine mirrors_checkpoint.bind fun w w' h => ?_
  have hwait (v : World ε) : (do
      let w ← get
      if nanos ≠ 0 then
        let time := w.clock + nanos
        goOn ((w.wakeTime? token time).getD time)
        if (← get).tokens.isCancelled token then fail .cancelled : Act ε Unit) v =
      (if nanos ≠ 0 then do
        goOn ((v.wakeTime? token (v.clock + nanos)).getD (v.clock + nanos))
        if (← get).tokens.isCancelled token then fail .cancelled
      else pure () : Act ε Unit) v := rfl
  by_cases hnanos : nanos ≠ 0
  · have hasleep : w'.wakeTime? token (w'.clock + nanos) = none := by
      rw [h.world, wakeTime?, Option.map_eq_none_iff, List.find?_eq_none]
      intro a ha
      have hcell : a.token.cell ∉ token.path := by simpa using (List.mem_filter.1 ha).2
      simp [hcell]
    cases hwake : w.wakeTime? token (w.clock + nanos) with
    | none =>
      refine ((h.goOn (w.clock + nanos)).bind fun _ => mirrors_look).congr ?_ ?_
      · rw [hwait, if_pos hnanos, hwake]
        rfl
      · rw [hwait, if_pos hnanos, hasleep, h.clock]
        rfl
    | some due =>
      obtain ⟨a, ha, rfl⟩ := Option.map_eq_some_iff.1 hwake
      have hdue := List.find?_some ha
      rw [Bool.and_eq_true, List.contains_iff_mem] at hdue
      have hrung : (w.passUntil a.due).tokens.isCancelled token := by
        simp only [passUntil, List.partition_eq_filter_filter, foldl_ring]
        refine Tokens.isCancelled_afterAlarms_of_mem ?_ hdue.2 (h.known _ hdue.2)
        exact List.mem_filter.2 ⟨List.mem_of_find?_eq_some ha, decide_eq_true le_rfl⟩
      have hgo : goOn a.due w = .ok () (w.passUntil a.due) := by rw [goOn, h.horizon]
      rw [Agrees, hwait, if_pos hnanos, hwake, Option.getD_some, bind_of_ok hgo, look_eq,
        if_pos hrung]
      exact .inl rfl
  · refine (agrees_pure () h).congr ?_ ?_
    · rw [hwait, if_neg hnanos]
    · rw [hwait, if_neg hnanos]

end World

/-- **An action and the same action without its cancellations agree**, unless the first one answers
that it was cancelled. -/
theorem Action.mirrors {ε : Type} (token : Token) (a : Action) :
    World.Mirrors token (a.perform token : Act ε Unit) (a.spared.perform token) := by
  induction a with
  | succeed => exact World.mirrors_pure
  | fail error => exact World.mirrors_throw _
  | panic p => exact World.mirrors_throw _
  | cancel scope =>
    intro w w' h
    refine ⟨w', rfl, h.world, h.live, ?_, h.horizon⟩
    simpa only [Tokens.size_cancel] using h.known
  | sleep nanos => exact World.mirrors_sleep nanos
  | pause nanos => exact World.mirrors_pause nanos
  | allocate bytes =>
    exact fun w w' h => agrees_modify (h.update (f := fun w => { w with
      allocatedBytes := w.allocatedBytes + UInt64.ofNat bytes
      allocations := w.allocations + 1 }) (fun _ _ _ => rfl) rfl)
  | andThen first second ihFirst ihSecond => exact ihFirst.bind ihSecond

/-! ## Sessions -/

theorem Workload.next?_spared (work : Workload) (stage : Stage) :
    work.spared.next? stage = (work.next? stage).map fun e => (e.1.spared, e.2.spared) := by
  cases stage with
  | before =>
    cases hbefore : work.before <;> simp [spared, next?, hook?, setHook, hbefore, Hook.spared]
  | body => rfl
  | after =>
    cases hafter : work.after <;> simp [spared, next?, hook?, setHook, hafter, Hook.spared]

namespace Session

variable {κ : Type}

/-- A session is another one without the cancellations of a token. -/
structure Spares (token : Token) (s s' : Session κ) : Prop where
  world : s.world.Spares token s'.world
  work : s'.work = s.work.spared
  run : s'.run = s.run

/-- The spared session is the session without the cancellations. -/
theorem spares_spared {s : Session κ} {token : Token}
    (hknown : ∀ i ∈ token.path, i < s.world.tokens.cells.size) (hhorizon : s.world.horizon = none) :
    s.Spares token (s.spared token) :=
  ⟨⟨rfl, Tokens.isCancelled_spared _ _, hknown, hhorizon⟩, rfl, rfl⟩

end Session

namespace Step

open Session

variable {κ α β : Type} {token : Token}

/-- A step escapes where it answers that it was cancelled, or breaks off. -/
def Escapes (e : Halt) : Prop := e = .failure .cancelled ∨ ∀ f, e ≠ .failure f

/-- A step of a session and the same step of the spared session agree, unless the first one
escapes. -/
def Mirrors (token : Token) (x : Step κ α) : Prop :=
  ∀ s s', Spares token s s' → Agrees Escapes (Spares token) x x s s'

theorem mirrors_pure (a : α) : Mirrors token (pure a : Step κ α) := fun _ _ h => agrees_pure a h

theorem mirrors_fail (f : Failure) : Mirrors token (fail f : Step κ α) :=
  fun _ _ h => agrees_throw _ h

theorem mirrors_ofResult (r : Except Failure α) : Mirrors token (ofResult r : Step κ α) := by
  cases r with
  | ok a => exact mirrors_pure a
  | error f => exact mirrors_fail f

theorem Mirrors.bind {x : Step κ α} {f : α → Step κ β} (hx : Mirrors token x)
    (hf : ∀ a, Mirrors token (f a)) : Mirrors token (x >>= f) :=
  fun s s' h => (hx s s' h).bind fun a t t' ht => hf a t t' ht

theorem mirrors_get {f : Session κ → Step κ α}
    (hf : ∀ s s', Spares token s s' → Agrees Escapes (Spares token) (f s) (f s') s s') :
    Mirrors token (get >>= f) :=
  fun s s' h => (hf s s' h).congr rfl rfl

/-- Both sessions have the same run. -/
theorem mirrors_theRun {f : Run κ → Step κ α} (hf : ∀ run, Mirrors token (f run)) :
    Mirrors token (theRun >>= f) := by
  intro s s' h
  refine (hf s.run s s' h).congr rfl ?_
  rw [← h.run]
  rfl

theorem mirrors_modifyRun (f : Run κ → Run κ) : Mirrors token (modifyRun f) :=
  fun _ _ h => agrees_modify ⟨h.world, h.work, congrArg f h.run⟩

/-- A step in the world that agrees with another one. -/
theorem agrees_inWorld {x y : Act (Event κ) Unit} (h : World.Mirrors token x y)
    {s s' : Session κ} (hs : Spares token s s') :
    Agrees (· = .failure .cancelled) (Spares token) (inWorld x) (inWorld y) s s' := by
  have hxy := h s.world s'.world hs.world
  rw [Agrees] at hxy
  cases hx : x s.world with
  | ok a w =>
    rw [hx] at hxy
    obtain ⟨w', hy, hw⟩ := hxy
    simp only [Agrees, inWorld, hx, hy]
    exact ⟨_, rfl, hw, hs.work, hs.run⟩
  | error e w =>
    rw [hx] at hxy
    simp only [Agrees, inWorld, hx]
    refine hxy.imp id ?_
    rintro ⟨w', hy, hw⟩
    exact ⟨{ s' with world := w' }, by rw [hy], hw, hs.work, hs.run⟩

theorem mirrors_inWorld {x : Act (Event κ) Unit} (h : World.Mirrors token x x) :
    Mirrors token (inWorld x) :=
  fun _ _ hs => (agrees_inWorld h hs).mono fun _ he => .inl he

theorem mirrors_log (event : Event κ) : Mirrors token (inWorld (World.log event)) :=
  mirrors_inWorld fun _ _ h => agrees_modify
    (h.update (f := fun w => { w with journal := event :: w.journal }) (fun _ _ _ => rfl) rfl)

/-- What breaks off in a hook breaks off in both sessions. -/
theorem agrees_guarded {x y : Step κ Unit} {s s' : Session κ}
    (h : Agrees (· = .failure .cancelled) (Spares token) x y s s') :
    Agrees Escapes (Spares token) (guarded x) (guarded y) s s' := by
  rw [Agrees] at h
  cases hx : x s with
  | ok a t =>
    rw [hx] at h
    obtain ⟨t', hy, ht⟩ := h
    simp only [Agrees, guarded, hx, hy]
    exact ⟨t', rfl, ht⟩
  | error e t =>
    rw [hx] at h
    rcases h with rfl | ⟨t', hy, ht⟩
    · simp only [Agrees, guarded, hx]
      exact .inl (.inl rfl)
    · cases e <;> simp only [Agrees, guarded, hx, hy] <;> exact .inr ⟨t', rfl, ht⟩

theorem mirrors_callHook (token : Token) (stage : Stage) :
    Mirrors token (callHook token stage : Step κ Unit) := by
  refine mirrors_get fun s s' h => ?_
  rw [h.work, Workload.next?_spared]
  cases hnext : s.work.next? stage with
  | none => exact agrees_pure () h
  | some called =>
    obtain ⟨action, work⟩ := called
    refine Agrees.bind (agrees_modify ⟨h.world, rfl, h.run⟩) fun _ t t' ht => ?_
    refine Agrees.bind (mirrors_log (.hook stage) t t' ht) fun _ u u' hu => ?_
    exact agrees_guarded (agrees_inWorld (World.mirrors_tick.bind (action.mirrors token)) hu)

/-- A settled step.  Where the first session is cancelled, what follows has to escape. -/
theorem Mirrors.bind_settle {x : Step κ α} {f : Except Failure α → Step κ β} (hx : Mirrors token x)
    (hf : ∀ r, Mirrors token (f r))
    (hcancelled : ∀ s, Yields (f (.error .cancelled)) s fun r _ => ∃ e, r = .error e ∧ Escapes e) :
    Mirrors token (settle x >>= f) := by
  intro s s' h
  have hxy := hx s s' h
  rw [Agrees] at hxy
  cases hs : x s with
  | ok a t =>
    rw [hs] at hxy
    obtain ⟨t', hs', ht⟩ := hxy
    exact (hf _ t t' ht).congr (bind_of_ok (settle_of_ok hs) f) (bind_of_ok (settle_of_ok hs') f)
  | error e t =>
    rw [hs] at hxy
    cases e with
    | failure g =>
      have hfirst := bind_of_ok (settle_of_failure hs) f
      rcases hxy with (hg | hnone) | ⟨t', hs', ht⟩
      · cases hg
        exact agrees_of_escapes ((hcancelled t).congr hfirst)
      · exact absurd rfl (hnone g)
      · exact (hf _ t t' ht).congr hfirst (bind_of_ok (settle_of_failure hs') f)
    | panic p =>
      have hsettled : settle x s = .error (.panic p) t := by rw [settle, hs]
      rw [Agrees, bind_of_error hsettled]
      exact .inl (.inr fun _ he => by cases he)
    | abandoned =>
      have hsettled : settle x s = .error .abandoned t := by rw [settle, hs]
      rw [Agrees, bind_of_error hsettled]
      exact .inl (.inr fun _ he => by cases he)

end Step

/-! ## Runs -/

namespace Run

open Session Step

variable {κ : Type} {token : Token}

theorem mirrors_repeatBody (first : Bool) (n : Nat) :
    Mirrors token (repeatBody token first n : Step κ Unit) := by
  induction n generalizing first with
  | zero => exact mirrors_pure ()
  | succ n ih =>
    have hrest : Mirrors token (do callHook token .body; repeatBody token false n : Step κ Unit) :=
      (mirrors_callHook token .body).bind fun _ => ih false
    cases first with
    | true => exact hrest
    | false => exact (mirrors_inWorld World.mirrors_checkpoint).bind fun _ => hrest

theorem mirrors_runBody : Mirrors token (runBody token : Step κ Unit) :=
  mirrors_theRun fun _ => mirrors_repeatBody true _

theorem mirrors_warmupFor (n : Nat) : Mirrors token (warmupFor token n : Step κ Unit) := by
  induction n with
  | zero => exact mirrors_pure ()
  | succ n ih =>
    exact (mirrors_inWorld World.mirrors_checkpoint).bind fun _ =>
      (mirrors_callHook token .before).bind fun _ => mirrors_runBody.bind fun _ =>
        (mirrors_callHook token .after).bind fun _ => ih

theorem mirrors_checkOwnCeilings : Mirrors token (checkOwnCeilings : Step κ Unit) := by
  refine mirrors_theRun fun r => ?_
  dsimp only
  split
  · refine mirrors_theRun fun r => ?_
    cases r.reader with
    | error f => exact mirrors_fail f
    | ok reader => exact mirrors_ofResult _
  · exact mirrors_pure ()

variable [Device κ]

theorem mirrors_callCollector (call : Call) (i : Nat) :
    Mirrors token (callCollector call i : Step κ Unit) := by
  refine mirrors_theRun fun r => ?_
  cases r.collectors[i]? with
  | none => exact mirrors_pure ()
  | some c =>
    refine (mirrors_log _).bind fun _ => (mirrors_inWorld World.mirrors_tick).bind fun _ =>
      mirrors_get fun s s' h => ?_
    have hreadings : s'.world.readings = s.world.readings := by rw [h.world.world]; rfl
    rw [hreadings]
    cases call.apply c.device s.world.readings with
    | ok device => exact mirrors_modifyRun _ s s' h
    | error p => exact agrees_throw _ h

theorem mirrors_callCollectors (call : Call) (order : List Nat) :
    Mirrors token (callCollectors call order : Step κ Unit) := by
  induction order with
  | nil => exact mirrors_pure ()
  | cons i order ih => exact (mirrors_callCollector call i).bind fun _ => ih

theorem mirrors_start (mode : CollectionMode) : Mirrors token (start mode : Step κ Unit) := by
  have hbracket (w : Writer) (order : List Nat) : Mirrors token (do
      let now := (← get).world.clock
      modifyRun fun r => { r with store := .writing (w.noteStart (Int64.ofNat (now / 1000000))) }
      callCollectors mode.call order
      modifyRun fun r => { r with collecting := true } : Step κ Unit) := by
    refine mirrors_get fun s s' h => ?_
    rw [h.world.clock]
    exact ((mirrors_modifyRun _).bind fun _ => (mirrors_callCollectors _ _).bind fun _ =>
      mirrors_modifyRun _) s s' h
  refine mirrors_theRun fun r => ?_
  split
  · exact mirrors_fail _
  · split
    · exact (mirrors_fail _).bind fun _ => hbracket _ _
    · exact hbracket _ _
  · exact mirrors_fail _

theorem mirrors_stopCollectors : Mirrors token (stopCollectors : Step κ Unit) :=
  mirrors_theRun fun _ => (mirrors_callCollectors _ _).bind fun _ => mirrors_modifyRun _

theorem mirrors_writeSample (w : Writer) : Mirrors token (writeSample w : Step κ Unit) := by
  refine mirrors_theRun fun r => ?_
  obtain ⟨result, w⟩ := w.write (values r)
  refine (mirrors_modifyRun _).bind fun _ => ?_
  cases result with
  | ok _ => exact mirrors_modifyRun _
  | error fault => exact mirrors_fail _

theorem mirrors_stop : Mirrors token (stop : Step κ Unit) := by
  have hrest (w : Writer) : Mirrors token (do stopCollectors; writeSample w : Step κ Unit) :=
    mirrors_stopCollectors.bind fun _ => mirrors_writeSample w
  refine mirrors_theRun fun r => ?_
  split
  · split
    · exact (mirrors_fail _).bind fun _ => hrest _
    · exact hrest _
  · exact mirrors_fail _

theorem mirrors_abort : Mirrors token (abort : Step κ Unit) := by
  refine mirrors_theRun fun r => ?_
  split
  · exact mirrors_stopCollectors
  · exact mirrors_pure ()

/-! ### Escapes -/

/-- A call of a collector can break off, but it does not fail. -/
theorem unfailing_callCollector (call : Call) (i : Nat) (s : Session κ) :
    Yields (callCollector call i) s fun r _ => ∀ f, r ≠ .error (.failure f) := by
  have htick (w : World (Event κ)) :
      Yields World.tick w fun r _ => ∀ f, r ≠ .error (.failure f) := by
    have htick : Yields World.tick w fun r _ => r = .ok () ∨ r = .error .abandoned := by
      refine Yields.congr (y := World.goOn (w.clock + 1)) (t := { w with cpu := w.cpu + 1 }) ?_ rfl
      rw [Yields, World.goOn]
      cases w.horizon with
      | none => exact .inl rfl
      | some horizon =>
        by_cases hlt : w.clock + 1 < horizon
        · simp [hlt]
        · simp [hlt]
    refine htick.mono ?_
    rintro r _ (rfl | rfl) f he <;> cases he
  simp only [callCollector, yields_bind, yields_theRun]
  cases s.run.collectors[i]? with
  | none => exact fun _ he => by cases he
  | some c =>
    simp only [yields_bind, yields_inWorld, World.log, yields_modify]
    refine (htick _).mono fun r w hr => ?_
    cases r with
    | error e => exact hr
    | ok _ =>
      simp only [yields_get]
      cases call.apply c.device w.readings with
      | ok device => exact fun _ he => by cases he
      | error p => exact fun _ he => by cases he

theorem unfailing_callCollectors (call : Call) (order : List Nat) (s : Session κ) :
    Yields (callCollectors call order) s fun r _ => ∀ f, r ≠ .error (.failure f) := by
  induction order generalizing s with
  | nil => exact fun _ he => by cases he
  | cons i order ih =>
    rw [callCollectors_cons, yields_bind]
    refine (unfailing_callCollector call i s).mono fun r t hr => ?_
    cases r with
    | ok _ => exact ih t
    | error e => exact hr

theorem unfailing_stopCollectors (s : Session κ) :
    Yields stopCollectors s fun r _ => ∀ f, r ≠ .error (.failure f) := by
  simp only [stopCollectors, yields_bind, yields_theRun]
  refine (unfailing_callCollectors _ _ s).mono fun r t hr => ?_
  cases r with
  | ok _ => exact fun _ he => by cases he
  | error e => exact hr

/-- An abort that does not answer breaks off. -/
theorem unfailing_abort (s : Session κ) :
    Yields abort s fun r _ => ∀ f, r ≠ .error (.failure f) := by
  simp only [abort, yields_bind, yields_theRun]
  split
  · exact unfailing_stopCollectors s
  · exact fun _ he => by cases he

/-- Before a step that escapes an iteration can be given up. -/
theorem escapes_abort {x : Step κ Unit} {s : Session κ}
    (hx : ∀ t, Yields x t fun r _ => ∃ e, r = .error e ∧ Escapes e) :
    Yields (do abort; x) s fun r _ => ∃ e, r = .error e ∧ Escapes e := by
  rw [yields_bind]
  refine (unfailing_abort s).mono fun r t hr => ?_
  cases r with
  | ok _ => exact hx t
  | error e => exact ⟨e, rfl, .inr fun f he => hr f (he ▸ rfl)⟩

theorem escapes_finalize (s : Session κ) : Yields (finalize (some .cancelled) : Step κ Unit) s
    fun r _ => ∃ e, r = .error e ∧ Escapes e := by
  refine escapes_abort fun t => ?_
  simp only [yields_bind, yields_theRun]
  cases t.run.store.toReader with
  | ok reader => exact ⟨_, rfl, .inl rfl⟩
  | error fault => exact ⟨_, rfl, .inl rfl⟩

/-! ### Whole runs -/

theorem mirrors_iterate : Mirrors token (iterate token : Step κ Unit) := by
  refine (mirrors_callHook token .before).bind fun _ => mirrors_theRun fun r =>
    (mirrors_start r.mode).bind fun _ => mirrors_runBody.bind_settle (fun r => ?_) fun s => ?_
  · cases r with
    | error f => exact mirrors_abort.bind fun _ => mirrors_fail f
    | ok _ => exact mirrors_stop.bind fun _ => mirrors_callHook token .after
  · exact escapes_abort fun _ => ⟨_, rfl, .inl rfl⟩

theorem mirrors_measureFrom (iteration n : Nat) :
    Mirrors token (measureFrom token iteration n : Step κ Unit) := by
  induction n generalizing iteration with
  | zero => exact mirrors_pure ()
  | succ n ih =>
    refine (mirrors_inWorld World.mirrors_checkpoint).bind fun _ => mirrors_iterate.bind fun _ =>
      mirrors_theRun fun r => ?_
    split
    · exact mirrors_modifyRun _
    · exact ih (iteration + 1)

theorem mirrors_finalize (failure : Option Failure) :
    Mirrors token (finalize failure : Step κ Unit) := by
  refine mirrors_abort.bind fun _ => mirrors_theRun fun r => ?_
  split
  · refine (mirrors_modifyRun _).bind fun _ => ?_
    cases failure with
    | none => exact mirrors_pure ()
    | some f => exact mirrors_fail f
  · exact (mirrors_modifyRun _).bind fun _ => mirrors_fail _

theorem mirrors_mainLoop : Mirrors token (mainLoop token : Step κ Unit) := by
  refine Mirrors.bind_settle (mirrors_theRun fun r => mirrors_measureFrom 1 r.config.executions)
    (fun r => ?_) escapes_finalize
  cases r with
  | ok _ => exact mirrors_pure ()
  | error f => exact mirrors_finalize (some f)

/-- **A whole run and the run of the spared session agree**, unless the first one answers that it
was cancelled, or breaks off. -/
theorem mirrors_execute : Mirrors token (execute token : Step κ Unit) := by
  refine (mirrors_modifyRun _).bind fun _ => Mirrors.bind_settle
    (mirrors_theRun fun r => mirrors_warmupFor r.config.warmup) (fun r => ?_) escapes_finalize
  cases r with
  | error f => exact mirrors_finalize (some f)
  | ok _ =>
    exact mirrors_mainLoop.bind fun _ => (mirrors_finalize none).bind fun _ =>
      mirrors_checkOwnCeilings

end Run

end Gauge
