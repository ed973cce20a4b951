import Gauge.Proofs.Run.Cues
import Gauge.Proofs.Run.Spared

/-!
# Who cancelled a run

The failures of a run are its own, those of its hooks, or that its token is cancelled.  A token that
is cancelled has a reason, and the reason is that of the method unless somebody outside has cancelled
it for the suite.

## Main definitions

* `Action.Admitted` — the scopes that an action cancels with, and the failures that it hands on.
* `World.Kept` — a property of worlds that time alone does not break.
* `World.Calm` — until a given time no token of a path is cancelled for the suite.
* `Failure.Own` — a failure that a run has of its own.
* `Step.Explains` — a step whose failures are of a kind, or say that its token is cancelled.

## Main statements

* `Run.composes_keepsWorld` — what the world keeps during a run.
* `World.kept_calm` — a calm world stays calm.
* `Run.explains_execute` — what a whole run fails with.
-/

namespace Gauge

/-! ## Actions and workloads -/

/-- An action cancels its run only with scopes of a kind, and hands on only failures of a kind. -/
def Action.Admitted (scopes : Scope → Prop) (failures : Failure → Prop) : Action → Prop
  | fail error => failures error.failure
  | cancel scope => scopes scope
  | andThen first second =>
    first.Admitted scopes failures ∧ second.Admitted scopes failures
  | _ => True

theorem Action.admitted_all (a : Action) : a.Admitted (fun _ => True) fun _ => True := by
  induction a with
  | andThen first second ihFirst ihSecond => exact ⟨ihFirst, ihSecond⟩
  | _ => trivial

/-- All calls of all hooks do actions of a kind. -/
def Workload.All (P : Action → Prop) (work : Workload) : Prop :=
  ∀ stage hook, work.hook? stage = some hook → ∀ k, P (hook.script k)

/-- A call does an action of that kind, and so do those after it. -/
theorem Workload.All.next {P : Action → Prop} {work work' : Workload} {stage : Stage}
    {action : Action} (h : work.All P) (hnext : work.next? stage = some (action, work')) :
    P action ∧ work'.All P := by
  obtain ⟨hook, hhook, heq⟩ := Option.map_eq_some_iff.1 hnext
  cases heq
  refine ⟨h stage hook hhook hook.calls, fun other hook' hhook' k => ?_⟩
  obtain ⟨hook₀, hhook₀, hscript, -⟩ := Workload.grows_next hnext other hook' hhook'
  rw [hscript]
  exact h other hook₀ hhook₀ k

/-! ## What the world keeps -/

namespace World

variable {ε : Type} {I : World ε → Prop} {w v : World ε} {token : Token}

/-- A property of worlds is kept where time passes: it depends on the clock, the tokens and the
alarms alone, and no alarm that is due breaks it. -/
structure Kept (I : World ε → Prop) : Prop where
  quiet : ∀ w v, I w → v.clock = w.clock → v.tokens = w.tokens → v.alarms = w.alarms → I v
  pass : ∀ w time, I w → I (w.passUntil time)

namespace Kept

theorem goOn (h : Kept I) (time : Nat) (hw : I w) : Yields (goOn time) w fun _ v => I v := by
  rw [Yields, World.goOn]
  cases w.horizon with
  | none => exact h.pass w time hw
  | some horizon =>
    by_cases hlt : time < horizon
    · simp only [if_pos hlt]
      exact h.pass w time hw
    · simp only [if_neg hlt]
      exact h.pass w horizon hw

theorem tick (h : Kept I) (hw : I w) : Yields tick w fun _ v => I v :=
  Yields.congr (h.goOn (w.clock + 1) (h.quiet w { w with cpu := w.cpu + 1 } hw rfl rfl rfl)) rfl

theorem bind {x y : Act ε Unit} (hx : ∀ w, I w → Yields x w fun _ v => I v)
    (hy : ∀ w, I w → Yields y w fun _ v => I v) (hw : I w) :
    Yields (x >>= fun _ => y) w fun _ v => I v := by
  rw [yields_bind]
  refine (hx w hw).mono fun r v hv => ?_
  cases r with
  | ok _ => exact hy v hv
  | error e => exact hv

theorem look (hw : I w) :
    Yields (do if (← get).tokens.isCancelled token then fail .cancelled : Act ε Unit) w
      fun _ v => I v := by
  rw [yields_bind, yields_get]
  dsimp only
  split
  · exact hw
  · exact hw

theorem checkpoint (h : Kept I) (hw : I w) : Yields (checkpoint token) w fun _ v => I v :=
  bind (fun _ => h.tick) (fun _ => look) hw

theorem pause (h : Kept I) (nanos : Nat) (hw : I w) :
    Yields (pause token nanos) w fun _ v => I v := by
  refine bind (fun _ => h.checkpoint) (fun w hw => ?_) hw
  rw [yields_bind, yields_get]
  dsimp only
  split
  · exact bind (fun _ => h.goOn _) (fun _ => look) hw
  · exact hw

/-- An action keeps what its cancellations keep. -/
theorem perform (h : Kept I) {scopes : Scope → Prop} {failures : Failure → Prop}
    (hcancel : ∀ w scope, scopes scope → I w →
      I { w with tokens := w.tokens.cancel token scope })
    {a : Action} (ha : a.Admitted scopes failures) (hw : I w) :
    Yields (a.perform token) w fun _ v => I v := by
  induction a generalizing w with
  | succeed | fail | panic => exact hw
  | cancel scope => exact hcancel w scope ha hw
  | sleep nanos => exact Yields.congr (h.goOn (w.clock + nanos) hw) rfl
  | pause nanos => exact h.pause nanos hw
  | allocate bytes => exact h.quiet w _ hw rfl rfl rfl
  | andThen first second ihFirst ihSecond =>
    exact bind (fun _ => ihFirst ha.1) (fun _ => ihSecond ha.2) hw

end Kept

end World

/-! ## What a run keeps -/

namespace Step

variable {κ α β : Type} {P : (α : Type) → Step κ α → Prop}

/-- A property that steps have if their parts have it, and that all changes of a run and all calls
of collectors have, is one of all parts of a run. -/
theorem Composes.run [Device κ] {token : Token} (h : Composes P) (hget : P _ get)
    (hmodify : ∀ f, P Unit (modifyRun f))
    (hcalls : ∀ call order, P Unit (Run.callCollectors call order))
    (hcheckpoint : P Unit (inWorld (World.checkpoint token)))
    (hhook : ∀ stage, P Unit (callHook token stage)) : Run.Composes token P := by
  have hstopCollectors : P Unit Run.stopCollectors :=
    h.bind h.theRun fun _ => h.bind (hcalls _ _) fun _ => hmodify _
  have habort : P Unit Run.abort := by
    refine h.bind h.theRun fun _ => ?_
    split
    · exact hstopCollectors
    · exact h.pure ()
  have hwrite (w : Writer) : P Unit (Run.writeSample w) := by
    refine h.bind h.theRun fun r => ?_
    obtain ⟨result, w⟩ := w.write (Run.values r)
    refine h.bind (hmodify _) fun _ => ?_
    cases result with
    | ok _ => exact hmodify _
    | error fault => exact h.fail _
  have hbracket (mode : CollectionMode) (w : Writer) (order : List Nat) : P Unit (do
      modifyRun fun r => { r with store := .writing w }
      Run.callCollectors mode.call order
      modifyRun fun r => { r with collecting := true }) :=
    h.bind (hmodify _) fun _ => h.bind (hcalls _ _) fun _ => hmodify _
  refine { toComposes := h, checkpoint := hcheckpoint, callHook := hhook, prepare := hmodify _,
           start := fun mode => ?_, stop := ?_, abort := habort, noteEarly := hmodify _,
           finalize := fun failure => ?_ }
  · refine h.bind h.theRun fun r => ?_
    split
    · exact h.fail _
    · split
      · exact h.bind (h.fail _) fun _ => h.bind hget fun _ => hbracket mode _ _
      · exact h.bind hget fun _ => hbracket mode _ _
    · exact h.fail _
  · refine h.bind h.theRun fun r => ?_
    have hrest (w : Writer) : P Unit (do Run.stopCollectors; Run.writeSample w) :=
      h.bind hstopCollectors fun _ => hwrite w
    split
    · split
      · exact h.bind (h.fail _) fun _ => hrest _
      · exact hrest _
    · exact h.fail _
  · refine h.bind habort fun _ => h.bind h.theRun fun r => ?_
    split
    · refine h.bind (hmodify _) fun _ => ?_
      cases failure with
      | none => exact h.pure ()
      | some f => exact h.fail f
    · exact h.bind (hmodify _) fun _ => h.fail _

/-- A step keeps a property of the world and the kind of actions that the hooks do. -/
def KeepsWorld (I : World (Event κ) → Prop) (P : Action → Prop) (x : Step κ α) : Prop :=
  ∀ s, I s.world → s.work.All P → Yields x s fun _ t => I t.world ∧ t.work.All P

variable {I : World (Event κ) → Prop} {A : Action → Prop}

theorem KeepsWorld.bind {x : Step κ α} {f : α → Step κ β} (hx : KeepsWorld I A x)
    (hf : ∀ a, KeepsWorld I A (f a)) : KeepsWorld I A (x >>= f) := by
  intro s hs hwork
  rw [yields_bind]
  refine (hx s hs hwork).mono fun r t ht => ?_
  cases r with
  | ok a => exact hf a t ht.1 ht.2
  | error e => exact ht

theorem composes_keepsWorld : Composes (κ := κ) fun _ x => KeepsWorld I A x where
  pure _ _ hs hwork := ⟨hs, hwork⟩
  fail _ _ hs hwork := ⟨hs, hwork⟩
  theRun _ hs hwork := ⟨hs, hwork⟩
  bind := KeepsWorld.bind
  settle hx s hs hwork := (yields_settle _).2 (hx s hs hwork)

theorem keepsWorld_inWorld {x : Act (Event κ) Unit} (hx : ∀ w, I w → Yields x w fun _ v => I v) :
    KeepsWorld I A (inWorld x) := fun s hs hwork =>
  (yields_inWorld x).2 ((hx s.world hs).mono fun _ _ hv => ⟨hv, hwork⟩)

theorem keepsWorld_log (h : World.Kept I) (event : Event κ) :
    KeepsWorld I A (inWorld (World.log event)) :=
  keepsWorld_inWorld fun w hw => h.quiet w _ hw rfl rfl rfl

theorem keepsWorld_callHook (h : World.Kept I) {token : Token}
    (haction : ∀ a w, A a → I w → Yields (a.perform token) w fun _ v => I v) (stage : Stage) :
    KeepsWorld I A (callHook token stage) := by
  intro s hs hwork
  simp only [callHook, yields_bind, yields_get]
  cases hnext : s.work.next? stage with
  | none => exact ⟨hs, hwork⟩
  | some called =>
    obtain ⟨action, work⟩ := called
    obtain ⟨ha, hwork'⟩ := hwork.next hnext
    have hcall : KeepsWorld I A (guarded (inWorld do
        World.tick
        action.perform token) : Step κ Unit) := fun s hs hwork =>
      (yields_guarded _).2 (keepsWorld_inWorld (fun _ hw => World.Kept.bind (fun _ => h.tick)
        (fun w => haction action w ha) hw) s hs hwork)
    exact (keepsWorld_log h (.hook stage)).bind (fun _ => hcall)
      { s with work := work } hs hwork'

end Step

namespace Run

open Step

variable {κ : Type} [Device κ] {I : World (Event κ) → Prop} {A : Action → Prop} {token : Token}

theorem keepsWorld_callCollector (h : World.Kept I) (call : Call) (i : Nat) :
    KeepsWorld I A (callCollector call i : Step κ Unit) := by
  refine composes_keepsWorld.bind composes_keepsWorld.theRun fun r => ?_
  cases r.collectors[i]? with
  | none => exact composes_keepsWorld.pure ()
  | some c =>
    refine (keepsWorld_log h _).bind fun _ => (keepsWorld_inWorld fun _ => h.tick).bind fun _ => ?_
    refine KeepsWorld.bind (fun s hs hwork => ⟨hs, hwork⟩) fun s => ?_
    cases call.apply c.device s.world.readings with
    | ok device => exact fun s hs hwork => ⟨hs, hwork⟩
    | error p => exact fun s hs hwork => ⟨hs, hwork⟩

/-- **A run keeps a property of the world** that time does not break, as long as the actions of its
hooks keep it. -/
theorem composes_keepsWorld (h : World.Kept I)
    (haction : ∀ a w, A a → I w → Yields (a.perform token) w fun _ v => I v) :
    Composes (κ := κ) token fun _ x => KeepsWorld I A x := by
  refine Step.composes_keepsWorld.run (fun s hs hwork => ⟨hs, hwork⟩)
    (fun f s hs hwork => ⟨hs, hwork⟩) (fun call order => ?_)
    (keepsWorld_inWorld fun _ => h.checkpoint) (keepsWorld_callHook h haction)
  induction order with
  | nil => exact fun s hs hwork => ⟨hs, hwork⟩
  | cons i order ih => exact (keepsWorld_callCollector h call i).bind fun _ => ih

end Run

/-! ## Calm worlds -/

namespace Tokens

/-- A cell that was not cancelled for the suite: it is not raised, or there is another reason. -/
def Unblamed (c : TokenCell) : Prop := c.reason ≠ some .suite ∧ (c.raised → c.reason.isSome)

theorem unblamed_cancel {s : Tokens} {t : Token} {i : Nat} {scope : Scope}
    (hscope : t.cell = i → scope ≠ .suite) (h : Unblamed (s.cell i)) :
    Unblamed ((s.cancel t scope).cell i) := by
  by_cases hi : t.cell = i
  · subst hi
    by_cases hsize : t.cell < s.cells.size
    · rw [cell_cancel_self scope hsize]
      refine ⟨?_, fun _ => ?_⟩
      · cases hreason : (s.cell t.cell).reason with
        | none => simpa using hscope rfl
        | some other => simpa [hreason] using h.1
      · cases (s.cell t.cell).reason <;> rfl
    · -- a cell that there is not is not changed
      have hnone : (s.cancel t scope).cell t.cell = s.cell t.cell := by
        have hmissing : s.cells[t.cell]? = none := Array.getElem?_eq_none (not_lt.1 hsize)
        simp [cell, cancel, record, raise, Array.getElem?_modify, hmissing]
      rwa [hnone]
  · rwa [cell_cancel_of_ne hi]

theorem unblamed_afterAlarms {s : Tokens} {alarms : List Alarm} {i : Nat}
    (halarms : ∀ a ∈ alarms, a.token.cell = i → a.scope ≠ .suite) (h : Unblamed (s.cell i)) :
    Unblamed ((s.afterAlarms alarms).cell i) := by
  induction alarms generalizing s with
  | nil => exact h
  | cons a alarms ih =>
    exact ih (fun b hb => halarms b (List.mem_cons_of_mem _ hb))
      (unblamed_cancel (halarms a List.mem_cons_self) h)

/-- A token that is cancelled and whose path was not cancelled for the suite has the reason of its
method. -/
theorem reason?_of_unblamed {s : Tokens} {token : Token}
    (h : ∀ i ∈ token.path, Unblamed (s.cell i)) :
    s.reason? token ≠ some .suite ∧ (s.isCancelled token → s.reason? token = some .method) := by
  have hsuite : s.reason? token ≠ some .suite := by
    intro hreason
    obtain ⟨i, hi, hsome⟩ := List.exists_of_findSome?_eq_some hreason
    exact (h i hi).1 hsome
  refine ⟨hsuite, fun hcancelled => ?_⟩
  obtain ⟨i, hi, hraised⟩ := List.any_eq_true.1 hcancelled
  have hsome : (s.reason? token).isSome := by
    rw [reason?, List.findSome?_isSome_iff]
    exact ⟨i, hi, (h i hi).2 hraised⟩
  obtain ⟨scope, hscope⟩ := Option.isSome_iff_exists.1 hsome
  cases scope with
  | method => exact hscope
  | suite => exact absurd hscope hsuite

end Tokens

namespace World

variable {ε : Type} {w v : World ε} {token : Token} {time : Nat}

/-- Until a time nobody cancels the path of a token for the suite: no cell on it has been, and no
alarm that is due by then will do so. -/
structure Calm (token : Token) (time : Nat) (w : World ε) : Prop where
  cells : w.clock ≤ time → ∀ i ∈ token.path, Tokens.Unblamed (w.tokens.cell i)
  alarms : ∀ a ∈ w.alarms, a.due ≤ time → a.token.cell ∈ token.path → a.scope ≠ .suite

/-- A calm world stays calm. -/
theorem kept_calm (token : Token) (time : Nat) : Kept (Calm (ε := ε) token time) where
  quiet w v hw hclock htokens halarms := by
    refine ⟨?_, ?_⟩
    · rw [hclock, htokens]
      exact hw.cells
    · rw [halarms]
      exact hw.alarms
  pass w now hw := by
    simp only [passUntil, List.partition_eq_filter_filter, foldl_ring]
    refine ⟨fun hclock i hi => ?_, fun a ha => hw.alarms a (List.mem_filter.1 ha).1⟩
    have hnow : now ≤ time := le_trans (le_max_right _ _) hclock
    refine Tokens.unblamed_afterAlarms (fun a ha heq => ?_)
      (hw.cells (le_trans (le_max_left _ _) hclock) i hi)
    obtain ⟨hmem, hdue⟩ := List.mem_filter.1 ha
    exact hw.alarms a hmem (le_trans (by simpa using hdue) hnow) (heq ▸ hi)

theorem calm_cancel (h : Calm token time w) (t : Token) {scope : Scope} (hscope : scope ≠ .suite) :
    Calm token time { w with tokens := w.tokens.cancel t scope } :=
  ⟨fun hclock i hi => Tokens.unblamed_cancel (fun _ => hscope) (h.cells hclock i hi), h.alarms⟩

theorem mem_setAlarm {a b : Alarm} (h : b ∈ (w.setAlarm a).alarms) : b = a ∨ b ∈ w.alarms := by
  simp only [setAlarm, List.partition_eq_filter_filter, List.mem_append, List.mem_filter,
    List.mem_cons] at h
  tauto

theorem calm_setAlarm (h : Calm token time w) {a : Alarm} (ha : a.scope ≠ .suite) :
    Calm token time (w.setAlarm a) := by
  refine ⟨h.cells, fun b hb => ?_⟩
  rcases mem_setAlarm hb with rfl | hb
  · exact fun _ _ => ha
  · exact h.alarms b hb

end World

/-! ## What steps fail with -/

namespace Failure

/-- A failure that a run has of its own: no timeout, and not the answer of a checkpoint. -/
def Own : Failure → Prop
  | timeout .. | cancelled => False
  | _ => True

/-- A failure is explained: it is of a kind, or it says that a token is cancelled, and the token
is. -/
def Explained (kind : Failure → Prop) (token : Token) (f : Failure) (tokens : Tokens) : Prop :=
  kind f ∨ f = cancelled ∧ tokens.isCancelled token

end Failure

namespace World

variable {ε : Type} {kind : Failure → Prop} {token : Token}

/-- The failures of a step in the world are explained. -/
def Explains (kind : Failure → Prop) (token : Token) (x : Act ε Unit) : Prop :=
  ∀ w, Yields x w fun r v => ∀ f, r = .error (.failure f) → f.Explained kind token v.tokens

theorem Explains.bind {x y : Act ε Unit} (hx : Explains kind token x)
    (hy : Explains kind token y) : Explains kind token (x >>= fun _ => y) := by
  intro w
  rw [yields_bind]
  refine (hx w).mono fun r v hv => ?_
  cases r with
  | ok _ => exact hy v
  | error e =>
    intro f hf
    exact hv f (by cases hf; rfl)

theorem explains_throw {e : Halt} (he : ∀ f, e = .failure f → kind f) :
    Explains kind token (throw e : Act ε Unit) := by
  intro w f hf
  exact .inl (he f (Except.error.inj hf))

theorem explains_goOn (time : World ε → Nat) :
    Explains kind token (fun w => goOn (time w) w : Act ε Unit) := by
  intro w
  simp only [Yields, goOn]
  cases w.horizon with
  | none => simp
  | some horizon => by_cases hlt : time w < horizon <;> simp [hlt]

theorem explains_tick : Explains kind token (tick : Act ε Unit) := fun w =>
  Yields.congr (explains_goOn (fun _ => w.clock + 1) { w with cpu := w.cpu + 1 }) rfl

theorem explains_look : Explains kind token
    (do if (← get).tokens.isCancelled token then fail .cancelled : Act ε Unit) := by
  intro w
  rw [yields_bind, yields_get]
  by_cases hcancelled : w.tokens.isCancelled token
  · simp only [hcancelled, if_true, yields_fail]
    intro f hf
    cases hf
    exact .inr ⟨rfl, hcancelled⟩
  · simp [hcancelled]

theorem explains_checkpoint : Explains kind token (checkpoint token : Act ε Unit) :=
  explains_tick.bind explains_look

theorem explains_pause (nanos : Nat) : Explains kind token (pause token nanos : Act ε Unit) := by
  refine explains_checkpoint.bind fun w => ?_
  rw [yields_bind, yields_get]
  dsimp only
  split
  · exact (explains_goOn fun _ => _).bind explains_look w
  · simp

end World

/-- The failures of an action are those that it hands on, or say that its run is cancelled. -/
theorem Action.explains_perform {ε : Type} {scopes : Scope → Prop} {kind : Failure → Prop}
    {a : Action} {token : Token} (ha : a.Admitted scopes kind) :
    World.Explains kind token (a.perform token : Act ε Unit) := by
  induction a with
  | succeed | cancel | allocate =>
    intro w f hf
    cases hf
  | fail error =>
    refine World.explains_throw fun f hf => ?_
    cases hf
    exact ha
  | panic p =>
    refine World.explains_throw fun f hf => ?_
    cases hf
  | sleep nanos => exact World.explains_goOn fun w => w.clock + nanos
  | pause nanos => exact World.explains_pause nanos
  | andThen first second ihFirst ihSecond => exact (ihFirst ha.1).bind (ihSecond ha.2)

namespace Step

variable {κ α β : Type} {token : Token} {scopes : Scope → Prop} {kind : Failure → Prop}

/-- The failures of a step are explained, as long as those of the hooks are of the kind. -/
structure Explains (scopes : Scope → Prop) (kind : Failure → Prop) (token : Token)
    (x : Step κ α) : Prop where
  onwards : Onwards x
  all : KeepsWorld (fun _ => True) (Action.Admitted scopes kind) x
  explains : ∀ s, s.work.All (Action.Admitted scopes kind) → Yields x s fun r t =>
    ∀ f, r = .error (.failure f) → f.Explained kind token t.world.tokens

/-- A step that hands a failure on has no other one. -/
structure Hands (scopes : Scope → Prop) (kind : Failure → Prop) (e : Failure) (x : Step κ α) :
    Prop where
  onwards : Onwards x
  all : KeepsWorld (fun _ => True) (Action.Admitted scopes kind) x
  hands : ∀ s, Yields x s fun r _ => ∀ f, r = .error (.failure f) → f = e

namespace Explains

theorem pure (a : α) : Explains scopes kind token (pure a : Step κ α) where
  onwards := onwards_pure a
  all := composes_keepsWorld.pure a
  explains _ _ _ hf := by cases hf

theorem theRun : Explains scopes kind token (theRun : Step κ (Run κ)) where
  onwards := onwards_theRun
  all := composes_keepsWorld.theRun
  explains _ _ _ hf := by cases hf

theorem bind {x : Step κ α} {f : α → Step κ β} (hx : Explains scopes kind token x)
    (hf : ∀ a, Explains scopes kind token (f a)) : Explains scopes kind token (x >>= f) where
  onwards := hx.onwards.bind fun a => (hf a).onwards
  all := hx.all.bind fun a => (hf a).all
  explains s hs := by
    rw [yields_bind]
    refine ((hx.all s trivial hs).and (hx.explains s hs)).mono fun r t ht => ?_
    obtain ⟨⟨-, hwork⟩, hexplained⟩ := ht
    cases r with
    | ok a => exact (hf a).explains t hwork
    | error e =>
      intro g hg
      exact hexplained g (by cases hg; rfl)

/-- What follows a step that is settled goes on after an answer, and hands a failure on. -/
theorem bind_settle {x : Step κ α} {f : Except Failure α → Step κ β}
    (hx : Explains scopes kind token x) (hok : ∀ a, Explains scopes kind token (f (.ok a)))
    (herror : ∀ e, Hands scopes kind e (f (.error e))) :
    Explains scopes kind token (settle x >>= f) where
  onwards := by
    refine (onwards_settle hx.onwards).bind fun r => ?_
    cases r with
    | ok a => exact (hok a).onwards
    | error e => exact (herror e).onwards
  all := by
    refine (composes_keepsWorld.settle hx.all).bind fun r => ?_
    cases r with
    | ok a => exact (hok a).all
    | error e => exact (herror e).all
  explains s hs := by
    rw [yields_bind, yields_settle]
    refine ((hx.all s trivial hs).and (hx.explains s hs)).mono fun r t ht => ?_
    obtain ⟨⟨-, hwork⟩, hexplained⟩ := ht
    cases r with
    | ok a => exact (hok a).explains t hwork
    | error e =>
      cases e with
      | panic p | abandoned =>
        intro g hg
        cases hg
      | failure e =>
        refine (((herror e).hands t).and ((herror e).onwards t)).mono fun r u hu g hg => ?_
        obtain ⟨hhands, honward⟩ := hu
        rw [hhands g hg]
        -- a token that was cancelled stays so
        exact (hexplained e rfl).imp_right fun ⟨he, hcancelled⟩ =>
          ⟨he, honward.world.cancelled token hcancelled⟩

/-- A step whose failures are of the kind, whatever the hooks do. -/
theorem of_kind {x : Step κ α} (honwards : Onwards x)
    (hall : KeepsWorld (fun _ => True) (Action.Admitted scopes kind) x)
    (hkind : ∀ s, Yields x s fun r _ => ∀ f, r = .error (.failure f) → kind f) :
    Explains scopes kind token x :=
  ⟨honwards, hall, fun s _ => (hkind s).mono fun _ _ hr f hf => .inl (hr f hf)⟩

end Explains

/-- Nothing at all is kept of the world. -/
theorem kept_true {ε : Type} : World.Kept fun _ : World ε => True := ⟨fun _ _ _ _ _ _ => trivial,
  fun _ _ _ => trivial⟩

theorem explains_checkpoint :
    Explains scopes kind token (inWorld (World.checkpoint token) : Step κ Unit) where
  onwards := onwards_checkpoint token
  all := keepsWorld_inWorld fun _ => kept_true.checkpoint
  explains s _ := (yields_inWorld _).2 (World.explains_checkpoint s.world)

/-- A hook that breaks off fails as a workload does. -/
theorem explains_callHook (hkind : ∀ f : Failure, f.Own → kind f) (stage : Stage) :
    Explains scopes kind token (callHook token stage : Step κ Unit) where
  onwards := onwards_callHook token stage
  all := keepsWorld_callHook kept_true
    (fun a w ha _ => kept_true.perform (fun _ _ _ _ => trivial) ha trivial) stage
  explains s hs := by
    simp only [callHook, yields_bind, yields_get]
    cases hnext : s.work.next? stage with
    | none =>
      intro f hf
      cases hf
    | some called =>
      obtain ⟨action, work⟩ := called
      have haction : World.Explains kind token (action.perform token : Act (Event κ) Unit) :=
        Action.explains_perform (hs.next hnext).1
      have hcall := World.explains_tick.bind haction
      simp only [yields_bind, yields_modify, yields_inWorld, World.log]
      rw [yields_guarded, yields_inWorld]
      refine (hcall _).mono fun r v hr f hf => ?_
      cases r with
      | ok _ => cases hf
      | error e =>
        cases e with
        | failure g => exact hr f hf
        | abandoned => cases hf
        | panic p =>
          cases hf
          exact .inl (hkind _ trivial)

end Step

/-- Ceilings fail with assertions. -/
theorem Reader.own_of_checkCeilings {r : Reader} {ceilings : Named Int64} {f : Failure}
    (h : r.checkCeilings ceilings = .error f) : f.Own := by
  rw [checkCeilings] at h
  split at h
  · next failure hfound =>
    cases h
    obtain ⟨⟨metric, ceiling⟩, -, hmetric⟩ := List.exists_of_findSome?_eq_some hfound
    obtain ⟨s, -, hreached⟩ := Option.bind_eq_some_iff.1 hmetric
    split at hreached
    · cases hreached
      trivial
    · cases hreached
  · cases h

namespace Run

open Step

variable {κ : Type} [Device κ] {token : Token} {scopes : Scope → Prop} {kind : Failure → Prop}

/-! ### The parts of a run -/

theorem composes_all (token : Token) : Composes (κ := κ) token fun _ x =>
    KeepsWorld (fun _ => True) (Action.Admitted scopes kind) x :=
  composes_keepsWorld kept_true
    fun _ _ ha _ => kept_true.perform (fun _ _ _ _ => trivial) ha trivial

theorem own_start (mode : CollectionMode) (s : Session κ) :
    Yields (start mode) s fun r _ => ∀ f, r = .error (.failure f) → f.Own := by
  simp only [start, yields_bind, yields_theRun]
  cases s.run.order with
  | none =>
    intro f hf
    cases hf
    trivial
  | some order =>
    cases s.run.store with
    | sealed reader | lost =>
      intro f hf
      cases hf
      trivial
    | writing w =>
      by_cases hcollecting : s.run.collecting
      · simp only [hcollecting, if_true, yields_bind, yields_fail]
        intro f hf
        cases hf
        trivial
      · simp only [if_neg hcollecting, yields_bind]
        simp only [yields_get, yields_modifyRun]
        refine (unfailing_callCollectors mode.call order _).mono fun r t hr => ?_
        cases r with
        | ok _ =>
          intro f hf
          cases hf
        | error e =>
          intro f hf
          exact absurd (by cases hf; rfl) (hr f)

theorem own_stop (s : Session κ) :
    Yields stop s fun r _ => ∀ f, r = .error (.failure f) → f.Own := by
  simp only [stop, yields_bind, yields_theRun]
  cases s.run.store with
  | sealed reader | lost =>
    intro f hf
    cases hf
    trivial
  | writing w =>
    by_cases hcollecting : s.run.collecting
    · simp only [hcollecting, Bool.not_true, Bool.false_eq_true, if_false, yields_bind]
      refine (unfailing_stopCollectors s).mono fun r t hr => ?_
      cases r with
      | error e =>
        intro f hf
        exact absurd hf (hr f)
      | ok _ =>
        simp only [writeSample, yields_bind, yields_theRun]
        cases (w.write (values t.run)).1 with
        | ok _ =>
          intro f hf
          cases hf
        | error fault =>
          intro f hf
          cases hf
          trivial
    · simp only [hcollecting]
      intro f hf
      cases hf
      trivial

/-- Sealing fails with the failure that it is given, or as the store does. -/
theorem hands_or_own_finalize (failure : Option Failure) (s : Session κ) :
    Yields (finalize failure) s fun r _ => ∀ f, r = .error (.failure f) →
      failure = some f ∨ failure = none ∧ f.Own := by
  simp only [finalize, yields_bind]
  refine (unfailing_abort s).mono fun r t hr => ?_
  cases r with
  | error e =>
    intro f hf
    exact absurd hf (hr f)
  | ok _ =>
    simp only [yields_theRun]
    cases t.run.store.toReader with
    | error fault =>
      cases failure with
      | none =>
        intro f hf
        cases hf
        exact .inr ⟨rfl, trivial⟩
      | some g =>
        intro f hf
        cases hf
        exact .inl rfl
    | ok reader =>
      cases failure with
      | none =>
        intro f hf
        cases hf
      | some g =>
        intro f hf
        cases hf
        exact .inl rfl

theorem hands_finalize (e : Failure) :
    Hands scopes kind e (finalize (some e) : Step κ Unit) where
  onwards := onwards_finalize (some e)
  all := (composes_all (κ := κ) ⟨0, []⟩).finalize (some e)
  hands s := by
    refine (hands_or_own_finalize (some e) s).mono fun r t hr f hf => ?_
    obtain he | ⟨hnone, -⟩ := hr f hf
    · exact (Option.some.inj he).symm
    · cases hnone

omit [Device κ] in
theorem own_checkOwnCeilings (s : Session κ) :
    Yields checkOwnCeilings s fun r _ => ∀ f, r = .error (.failure f) → f.Own := by
  simp only [checkOwnCeilings, yields_bind, yields_theRun]
  split
  · simp only [checkCeilings, yields_bind, yields_theRun, Run.reader]
    cases s.run.store with
    | writing w | lost =>
      intro f hf
      cases hf
      trivial
    | sealed reader =>
      simp only [ofResult]
      cases hceilings : reader.checkCeilings s.run.config.ceilings with
      | ok _ =>
        intro f hf
        cases hf
      | error g =>
        intro f hf
        cases hf
        exact Reader.own_of_checkCeilings hceilings
  · intro f hf
    cases hf

/-! ### Whole runs -/

section Whole

variable (hkind : ∀ f : Failure, f.Own → kind f)

include hkind

omit [Device κ] in
theorem explains_repeatBody (first : Bool) (n : Nat) :
    Explains scopes kind token (repeatBody token first n : Step κ Unit) := by
  induction n generalizing first with
  | zero => exact .pure ()
  | succ n ih =>
    have hrest : Explains scopes kind token (do callHook token .body; repeatBody token false n :
        Step κ Unit) := (explains_callHook hkind .body).bind fun _ => ih false
    cases first with
    | true => exact hrest
    | false => exact explains_checkpoint.bind fun _ => hrest

omit [Device κ] in
theorem explains_runBody : Explains scopes kind token (runBody token : Step κ Unit) :=
  Explains.theRun.bind fun _ => explains_repeatBody hkind true _

omit [Device κ] in
theorem explains_warmup : Explains scopes kind token (warmup token : Step κ Unit) := by
  have hfor (n : Nat) : Explains scopes kind token (warmupFor token n : Step κ Unit) := by
    induction n with
    | zero => exact .pure ()
    | succ n ih =>
      exact explains_checkpoint.bind fun _ => (explains_callHook hkind .before).bind fun _ =>
        (explains_runBody hkind).bind fun _ => (explains_callHook hkind .after).bind fun _ => ih
  exact Explains.theRun.bind fun _ => hfor _

theorem explains_iterate : Explains scopes kind token (iterate token : Step κ Unit) := by
  have hall : Composes (κ := κ) token fun _ x =>
      KeepsWorld (fun _ => True) (Action.Admitted scopes kind) x := composes_all token
  have hstart (mode : CollectionMode) :
      Explains scopes kind token (start mode : Step κ Unit) :=
    .of_kind (onwards_start mode) (hall.start mode) fun s =>
      (own_start mode s).mono fun _ _ hr f hf => hkind f (hr f hf)
  have hstop : Explains scopes kind token (stop : Step κ Unit) :=
    .of_kind onwards_stop hall.stop fun s =>
      (own_stop s).mono fun _ _ hr f hf => hkind f (hr f hf)
  refine (explains_callHook hkind .before).bind fun _ => Explains.theRun.bind fun r =>
    (hstart r.mode).bind fun _ => (explains_runBody hkind).bind_settle (fun _ => ?_) fun e => ?_
  · exact hstop.bind fun _ => explains_callHook hkind .after
  · refine ⟨onwards_settledBody token (.error e), hall.settledBody (.error e), fun s => ?_⟩
    rw [yields_bind]
    refine (unfailing_abort s).mono fun r t hr => ?_
    cases r with
    | error h =>
      intro f hf
      exact absurd (by cases hf; rfl) (hr f)
    | ok _ =>
      intro f hf
      cases hf
      rfl

theorem explains_measure : Explains scopes kind token (measure token : Step κ Unit) := by
  have hearly : Explains scopes kind token
      (modifyRun fun r => { r with earlyStopped := true } : Step κ Unit) :=
    ⟨(composes_onwards token).noteEarly, (composes_all (κ := κ) token).noteEarly,
      fun _ _ _ hf => by cases hf⟩
  have hfrom (iteration n : Nat) :
      Explains scopes kind token (measureFrom token iteration n : Step κ Unit) := by
    induction n generalizing iteration with
    | zero => exact .pure ()
    | succ n ih =>
      refine explains_checkpoint.bind fun _ => (explains_iterate hkind).bind fun _ =>
        Explains.theRun.bind fun r => ?_
      split
      · exact hearly
      · exact ih _
  exact Explains.theRun.bind fun _ => hfrom 1 _

theorem explains_mainLoop : Explains scopes kind token (mainLoop token : Step κ Unit) :=
  (explains_measure hkind).bind_settle (fun _ => .pure ()) hands_finalize

/-- **The failures of a whole run are explained**: they are of a kind that holds its own failures
and those of its hooks, or they say that its token is cancelled, and the token is. -/
theorem explains_execute : Explains scopes kind token (execute token : Step κ Unit) := by
  have hall : Composes (κ := κ) token fun _ x =>
      KeepsWorld (fun _ => True) (Action.Admitted scopes kind) x := composes_all token
  have hfinalize : Explains scopes kind token (finalize none : Step κ Unit) :=
    .of_kind (onwards_finalize none) (hall.finalize none) fun s =>
      (hands_or_own_finalize none s).mono fun r _ hr f hf => by
        obtain hsome | ⟨-, hown⟩ := hr f hf
        · cases hsome
        · exact hkind f hown
  have hceilings : Explains scopes kind token (checkOwnCeilings : Step κ Unit) :=
    .of_kind onwards_checkOwnCeilings hall.checkOwnCeilings fun s =>
      (own_checkOwnCeilings s).mono fun _ _ hr f hf => hkind f (hr f hf)
  have hprepare : Explains scopes kind token (prepare : Step κ Unit) :=
    ⟨onwards_prepare, hall.prepare, fun _ _ _ hf => by cases hf⟩
  refine hprepare.bind fun _ => (explains_warmup hkind).bind_settle (fun _ => ?_)
    hands_finalize
  exact (explains_mainLoop hkind).bind fun _ => hfinalize.bind fun _ => hceilings

end Whole

end Run

end Gauge
