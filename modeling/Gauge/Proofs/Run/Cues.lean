import Gauge.Proofs.Run.EarlyStop

/-!
# Cues

A run goes through a list of cues: checkpoints, calls of hooks, starts and stops of all collectors,
and samples to write.  A cue takes one step of the session, and the run goes on as long as its cues
succeed.  Between any two of them the token can turn out to be cancelled.

## Main definitions

* `Action.Raises` — the failure that the action of a hook ends with.
* `Cue` — what a run does next; `Cue.perform` does it.
* `Cue.performEach` — several cues, up to the first one that fails.
* `Cue.ledger` — the ledger of the samples that the cues measure.
* `Cue.Fails` — why a cue fails.
* `Session.cues` — the cues of a run with a number of measured iterations.

## Main statements

* `Cue.performed` — what a cue leaves of a session on its way.
* `Cue.performedEach` — what cues leave of it, and which of them was the first to fail.
-/

namespace Gauge

/-! ## Hooks -/

/-- The failure that an action ends with in a hook: a failure that passed through under any contexts
comes out unchanged, any other error keeps its chain, and what breaks off is told from its text.  Of
two actions the second one follows if the first one does not fail. -/
def Action.Raises : Action → Failure → Prop
  | fail (.plain chain), f => f = .workload chain
  | fail (.carried g _), f => f = g
  | panic p, f => f = .workload [s!"panicked: {p.message}"]
  | andThen first second, f => first.Raises f ∨ (∀ g, ¬ first.Raises g) ∧ second.Raises f
  | _, _ => False

theorem Action.raises_iff {a : Action} {f : Failure} : a.Raises f ↔ a.failure? = some f := by
  induction a generalizing f with
  | fail error =>
    cases error <;> simp [Raises, failure?, HookError.failure, eq_comm]
  | panic p => simp [Raises, failure?, Panic.inHook, eq_comm]
  | andThen first second ihFirst ihSecond =>
    have hnone : first.failure? = none ↔ ∀ g, ¬ first.Raises g := by
      rw [Option.eq_none_iff_forall_ne_some]
      exact forall_congr' fun g => not_congr ihFirst.symm
    rw [failure?, Option.or_eq_some_iff, hnone, ← ihFirst, ← ihSecond, Raises]
  | _ => simp [Raises, failure?]

namespace Workload

variable {work work' work'' : Workload}

/-- A workload after some calls of another one's hooks: the scripts stay, and the calls are
counted. -/
def Grows (work work' : Workload) : Prop :=
  ∀ stage hook', work'.hook? stage = some hook' →
    ∃ hook, work.hook? stage = some hook ∧ hook'.script = hook.script ∧ hook.calls ≤ hook'.calls

theorem Grows.refl (work : Workload) : work.Grows work := fun _ hook' h => ⟨hook', h, rfl, le_rfl⟩

theorem Grows.trans (h : work.Grows work') (h' : work'.Grows work'') : work.Grows work'' := by
  intro stage hook'' hhook''
  obtain ⟨hook', hhook', hscript', hcalls'⟩ := h' stage hook'' hhook''
  obtain ⟨hook, hhook, hscript, hcalls⟩ := h stage hook' hhook'
  exact ⟨hook, hhook, hscript'.trans hscript, hcalls.trans hcalls'⟩

theorem hook?_setHook (work : Workload) (hook : Hook) (stage other : Stage) :
    (work.setHook hook stage).hook? other =
      if other = stage then some hook else work.hook? other := by
  cases stage <;> cases other <;> rfl

theorem grows_next {stage : Stage} {action : Action} (h : work.next? stage = some (action, work')) :
    work.Grows work' := by
  obtain ⟨hook, hhook, hcalled⟩ := Option.map_eq_some_iff.1 h
  cases hcalled
  intro other hook' hother
  rw [hook?_setHook] at hother
  split at hother
  · next heq =>
    cases hother
    exact ⟨hook, heq ▸ hhook, rfl, Nat.le_succ _⟩
  · exact ⟨hook', hother, rfl, le_rfl⟩

end Workload

/-! ## What a run does next -/

/-- What a run does next. -/
inductive Cue where
  | checkpoint
  | hook (stage : Stage)
  /-- the bracket of a measured iteration opens -/
  | start
  /-- the bracket closes -/
  | stop
  /-- a sample is written -/
  | write
  deriving DecidableEq

namespace Cue

open Session Step Run

variable {κ : Type} [Device κ]

def perform (token : Token) : Cue → Step κ Unit
  | checkpoint => inWorld (World.checkpoint token)
  | hook stage => callHook token stage
  | start => do Run.start (← theRun).mode
  | stop => stopCollectors
  | write => do
    match (← theRun).store with
    | .writing w => writeSample w
    | _ => fail .sealed

/-- Performs cues one after another, up to the first one that fails. -/
def performEach (token : Token) (cues : List Cue) : Step κ Unit := cues.forM (perform token)

/-- The ledger after a cue: a start notes the time, and a sample has the values that the collectors
show. -/
def enter (s : Session κ) (l : Ledger) : Cue → Ledger
  | start => (l.perform (.start s.millis)).2
  | write => (l.perform (.write (Run.values s.run))).2
  | _ => l

/-- The ledger after cues, up to the first one that fails. -/
def ledger (token : Token) (l : Ledger) : List Cue → Session κ → Ledger
  | [], _ => l
  | cue :: cues, s =>
    match cue.perform token s with
    | .ok _ t => ledger token (cue.enter s l) cues t
    | .error _ _ => l

omit [Device κ] in
/-- The calls of a cue, in a session that began as `s₀`. -/
def beats (s₀ : Session κ) : Cue → List Beat
  | hook stage => s₀.work.beatOf stage
  | start => s₀.run.starts
  | stop => s₀.run.stops
  | _ => []

/-- Whether the bracket is open after a cue, if the cue fits. -/
def bracket (collecting : Bool) : Cue → Option Bool
  | start => if collecting then none else some true
  | stop => if collecting then some false else none
  | write => if collecting then none else some false
  | _ => some collecting

def bracketAll (collecting : Bool) (cues : List Cue) : Option Bool := cues.foldlM bracket collecting

omit [Device κ] in
/-- Why a cue fails: a checkpoint, or a hook that waits, finds the token cancelled, or the action of
a hook fails. -/
def Fails (token : Token) (s : Session κ) (f : Failure) (t : Session κ) : Cue → Prop
  | checkpoint => f = .cancelled ∧ t.world.tokens.isCancelled token
  | hook stage => ∃ action, s.work.next? stage = some (action, t.work) ∧
    (action.Raises f ∨ f = .cancelled ∧ t.world.tokens.isCancelled token)
  | _ => False

/-! ## One cue -/

variable {token : Token} {s₀ s t u : Session κ} {l : Ledger} {collecting after : Bool} {cue : Cue}

/-- What a cue leaves of a session on its way. -/
structure Left (token : Token) (s₀ : Session κ) (l : Ledger) (collecting after : Bool)
    (s : Session κ) (cue : Cue) (r : Except Halt Unit) (t : Session κ) : Prop where
  work : s.work.Grows t.work
  early : t.run.earlyStopped = s.run.earlyStopped
  beats : t.world.beats = s.world.beats ++ cue.beats s₀
  ok : ∀ a, r = .ok a → Tracks s₀ (cue.enter s l) after t
  error : ∀ e, r = .error e → Tracks s₀ l collecting t ∧ ∃ f, e = .failure f ∧ cue.Fails token s f t

/-- A cue that cannot fail. -/
theorem left_of_called {beats : List Beat} {r : Except Halt Unit}
    (h : Called s₀ (cue.enter s l) after s beats r t) (hbeats : cue.beats s₀ = beats) :
    Left token s₀ l collecting after s cue r t where
  work := h.work ▸ .refl s.work
  early := h.early
  beats := hbeats ▸ h.beats
  ok := fun _ _ => h.tracks
  error := fun e he => by rw [h.answer] at he; cases he

/-- A cue that leaves the run as it is. -/
theorem left_of_answer {r : Except Halt Unit}
    (hwork : s.work.Grows t.work) (hrun : t.run = s.run) (honward : s.Onward t)
    (hbeats : t.world.beats = s.world.beats ++ cue.beats s₀) (h : Tracks s₀ l collecting s)
    (henter : cue.enter s l = l)
    (herror : ∀ e, r = .error e → ∃ f, e = .failure f ∧ cue.Fails token s f t) :
    Left token s₀ l collecting collecting s cue r t where
  work := hwork
  early := by rw [hrun]
  beats := hbeats
  ok := fun _ _ => henter.symm ▸ h.of_run_eq honward hrun
  error := fun e he => ⟨h.of_run_eq honward hrun, herror e he⟩

theorem performed_checkpoint (h : Tracks s₀ l collecting s) :
    Yields (perform token checkpoint) s (Left token s₀ l collecting collecting s checkpoint) := by
  rw [perform, yields_inWorld]
  refine (World.answers_checkpoint token s.world).mono ?_
  rintro r w ⟨hsilent, hr⟩
  refine left_of_answer (.refl _) rfl (onward_world hsilent.toLater) ?_ h rfl ?_
  · rw [hsilent.beats]
    exact (List.append_nil _).symm
  · rintro e rfl
    rcases hr h.world_horizon with hok | ⟨hfailed, hcancelled⟩
    · cases hok
    · exact ⟨.cancelled, Except.error.inj hfailed, rfl, hcancelled⟩

theorem performed_hook (h : Tracks s₀ l collecting s) (stage : Stage) :
    Yields (perform token (hook stage)) s
      (Left token s₀ l collecting collecting s (hook stage)) := by
  have hbeat : beats s₀ (hook stage) = s.work.beatOf stage := by
    rw [beats, Workload.beatOf, Workload.beatOf, h.onward.hooks]
  refine (yields_callHook token stage s).mono ?_
  rintro r t (⟨hnext, rfl, rfl⟩ | ⟨action, hcall⟩)
  · refine left_of_answer (.refl _) rfl (.refl t) ?_ h rfl fun e he => ?_
    · simp [hbeat, Workload.beatOf_eq, hnext]
    · cases he
  · refine left_of_answer (Workload.grows_next hcall.next) hcall.run hcall.onward ?_ h rfl ?_
    · simp [hbeat, Workload.beatOf_eq, hcall.next, hcall.beats]
    · intro e he
      rcases hcall.answer h.world_horizon with rfl | ⟨rfl, hcancelled⟩
      · cases hfailure : action.failure? with
        | none =>
          rw [hfailure] at he
          cases he
        | some f =>
          rw [hfailure] at he
          exact ⟨f, (Except.error.inj he).symm, action, hcall.next,
            .inl (Action.raises_iff.2 hfailure)⟩
      · exact ⟨.cancelled, (Except.error.inj he).symm, action, hcall.next, .inr ⟨rfl, hcancelled⟩⟩

/-- **What a cue leaves of a session on its way**, if it fits. -/
theorem performed (h : Tracks s₀ l collecting s) (hfits : cue.bracket collecting = some after) :
    Yields (cue.perform token) s (Left token s₀ l collecting after s cue) := by
  cases cue with
  | checkpoint =>
    cases hfits
    exact performed_checkpoint h
  | hook stage =>
    cases hfits
    exact performed_hook h stage
  | start =>
    cases collecting with
    | true => cases hfits
    | false =>
      cases hfits
      rw [perform, yields_bind, yields_theRun]
      simp only [h.onward.mode]
      exact (called_start h).mono fun r t ht => left_of_called ht rfl
  | stop =>
    cases collecting with
    | false => cases hfits
    | true =>
      cases hfits
      exact (called_stopCollectors h).mono fun r t ht => left_of_called ht rfl
  | write =>
    cases collecting with
    | true => cases hfits
    | false =>
      cases hfits
      obtain ⟨w, hstore, hfollows, hmode⟩ := h.store
      rw [perform, yields_bind, yields_theRun]
      simp only [hstore]
      exact (called_writeSample h hfollows hmode).mono fun r t ht => left_of_called ht rfl

/-! ## Several cues -/

variable {cues : List Cue} {f : Failure}

theorem performEach_cons_of_ok {a : Unit} (h : cue.perform token s = .ok a t) :
    performEach token (cue :: cues) s = performEach token cues t :=
  bind_of_ok h _

theorem performEach_cons_of_error {e : Halt} (h : cue.perform token s = .error e t) :
    performEach token (cue :: cues) s = .error e t :=
  bind_of_error h _

theorem performEach_append (token : Token) (first second : List Cue) :
    (performEach token (first ++ second) : Step κ Unit) =
      performEach token first >>= fun _ => performEach token second :=
  List.forM_append

theorem ledger_cons_of_ok {a : Unit} (h : cue.perform token s = .ok a t) :
    ledger token l (cue :: cues) s = ledger token (cue.enter s l) cues t := by
  rw [ledger, h]

theorem ledger_cons_of_error {e : Halt} (h : cue.perform token s = .error e t) :
    ledger token l (cue :: cues) s = l := by
  rw [ledger, h]

theorem ledger_append_of_ok {first : List Cue} (second : List Cue) {a : Unit}
    (h : performEach token first s = .ok a t) :
    ledger token l (first ++ second) s = ledger token (ledger token l first s) second t := by
  induction first generalizing s l with
  | nil =>
    cases h
    rfl
  | cons cue first ih =>
    cases hcue : cue.perform token s with
    | ok _ u =>
      rw [performEach_cons_of_ok hcue] at h
      rw [List.cons_append, ledger_cons_of_ok hcue, ledger_cons_of_ok hcue, ih h]
    | error e u =>
      rw [performEach_cons_of_error hcue] at h
      cases h

theorem ledger_append_of_error {first : List Cue} (second : List Cue) {e : Halt}
    (h : performEach token first s = .error e t) :
    ledger token l (first ++ second) s = ledger token l first s := by
  induction first generalizing s l with
  | nil => cases h
  | cons cue first ih =>
    cases hcue : cue.perform token s with
    | ok _ u =>
      rw [performEach_cons_of_ok hcue] at h
      rw [List.cons_append, ledger_cons_of_ok hcue, ledger_cons_of_ok hcue, ih h]
    | error e' u => rw [List.cons_append, ledger_cons_of_error hcue, ledger_cons_of_error hcue]

/-- Cues add samples to those that there are. -/
theorem samples_prefix_ledger (token : Token) (l : Ledger) (cues : List Cue) (s : Session κ) :
    l.samples <+: (ledger token l cues s).samples := by
  induction cues generalizing s l with
  | nil => exact List.prefix_rfl
  | cons cue cues ih =>
    have henter : l.samples <+: (cue.enter s l).samples := by
      cases cue with
      | write => exact List.prefix_append _ _
      | _ => exact List.prefix_rfl
    cases hcue : cue.perform token s with
    | ok _ t =>
      rw [ledger_cons_of_ok hcue]
      exact henter.trans (ih _ t)
    | error e t =>
      rw [ledger_cons_of_error hcue]

theorem length_ledger_of_ok {a : Unit} (h : performEach token cues s = .ok a t) :
    (ledger token l cues s).samples.length = l.samples.length + cues.count write := by
  induction cues generalizing s l with
  | nil => rfl
  | cons cue cues ih =>
    cases hcue : cue.perform token s with
    | ok _ u =>
      rw [performEach_cons_of_ok hcue] at h
      rw [ledger_cons_of_ok hcue, ih h]
      cases cue with
      | write =>
        simp only [enter, Ledger.perform, List.length_append, List.length_singleton,
          List.count_cons_self]
        omega
      | _ => simp [enter, Ledger.perform]
    | error e u =>
      rw [performEach_cons_of_error hcue] at h
      cases h

/-- Cues add at most a sample for each write. -/
theorem length_ledger_le (token : Token) (l : Ledger) (cues : List Cue) (s : Session κ) :
    (ledger token l cues s).samples.length ≤ l.samples.length + cues.count write := by
  induction cues generalizing s l with
  | nil => exact le_rfl
  | cons cue cues ih =>
    cases hcue : cue.perform token s with
    | ok _ t =>
      rw [ledger_cons_of_ok hcue]
      refine (ih _ t).trans ?_
      cases cue with
      | write =>
        simp only [enter, Ledger.perform, List.length_append, List.length_singleton,
          List.count_cons_self]
        omega
      | _ => simp [enter, Ledger.perform]
    | error e t =>
      rw [ledger_cons_of_error hcue]
      exact Nat.le_add_right _ _

/-- Cues break off at one of them: those before it are performed, and it fails. -/
def Breaks (token : Token) (s : Session κ) (done : List Cue) (cue : Cue) (f : Failure)
    (t : Session κ) : Prop :=
  ∃ u, performEach token done s = .ok () u ∧ cue.perform token u = .error (.failure f) t ∧
    s.work.Grows u.work ∧ cue.Fails token u f t

/-- Cues break off only at a checkpoint, which answers that the run was cancelled, or at a hook. -/
theorem Breaks.checkpoint_or_hook {done : List Cue} (h : Breaks token s done cue f t) :
    cue = checkpoint ∧ f = .cancelled ∨ ∃ stage, cue = .hook stage := by
  obtain ⟨u, -, -, -, hfails⟩ := h
  cases cue with
  | checkpoint => exact .inl ⟨rfl, hfails.1⟩
  | hook stage => exact .inr ⟨stage, rfl⟩
  | start | stop | write => exact hfails.elim

/-- What cues leave of a session on its way. -/
structure LeftAll (token : Token) (s₀ : Session κ) (l : Ledger) (collecting after : Bool)
    (s : Session κ) (cues : List Cue) (r : Except Halt Unit) (t : Session κ) : Prop where
  work : s.work.Grows t.work
  early : t.run.earlyStopped = s.run.earlyStopped
  ok : ∀ a, r = .ok a → Tracks s₀ (ledger token l cues s) after t ∧
    t.world.beats = s.world.beats ++ cues.flatMap (beats s₀)
  error : ∀ e, r = .error e → ∃ f done cue rest, e = .failure f ∧ cues = done ++ cue :: rest ∧
    Breaks token s done cue f t ∧ (∃ now, Tracks s₀ (ledger token l cues s) now t) ∧
    t.world.beats = s.world.beats ++ (done ++ [cue]).flatMap (beats s₀)

/-- A cue before others. -/
theorem LeftAll.cons {next : Bool} {a : Unit} {r : Except Halt Unit}
    (hcue : cue.perform token s = .ok a t) (hleft : Left token s₀ l collecting next s cue (.ok a) t)
    (h : LeftAll token s₀ (cue.enter s l) next after t cues r u) :
    LeftAll token s₀ l collecting after s (cue :: cues) r u where
  work := hleft.work.trans h.work
  early := h.early.trans hleft.early
  ok := fun b hb => by
    obtain ⟨htracks, hbeats⟩ := h.ok b hb
    rw [ledger_cons_of_ok hcue]
    exact ⟨htracks, by rw [hbeats, hleft.beats, List.append_assoc, List.flatMap_cons]⟩
  error := fun e he => by
    obtain ⟨f, done, failing, rest, hf, hcues, hbreaks, htracks, hbeats⟩ := h.error e he
    obtain ⟨v, hdone, hfailing, hgrows, hfails⟩ := hbreaks
    rw [ledger_cons_of_ok hcue]
    refine ⟨f, cue :: done, failing, rest, hf, congrArg (cue :: ·) hcues, ?_, htracks, ?_⟩
    · exact ⟨v, (performEach_cons_of_ok hcue).trans hdone, hfailing, hleft.work.trans hgrows,
        hfails⟩
    · rw [hbeats, hleft.beats, List.append_assoc, List.cons_append, List.flatMap_cons]

/-- **What cues leave of a session on its way**, if they fit: the samples of the ledger, and the
calls of all cues up to the first one that fails. -/
theorem performedEach (token : Token) (h : Tracks s₀ l collecting s)
    (hfits : bracketAll collecting cues = some after) :
    Yields (performEach token cues) s (LeftAll token s₀ l collecting after s cues) := by
  induction cues generalizing s l collecting with
  | nil =>
    cases hfits
    exact
      { work := .refl _
        early := rfl
        ok := fun _ _ => ⟨h, (List.append_nil _).symm⟩
        error := fun e he => by cases he }
  | cons cue cues ih =>
    obtain ⟨next, hnext, hrest⟩ := Option.bind_eq_some_iff.1 hfits
    cases hcue : cue.perform token s with
    | ok a t =>
      have hleft := (performed h hnext).of_ok hcue
      exact ((ih (hleft.ok a rfl) hrest).mono fun r u hu => hu.cons hcue hleft).congr
        (performEach_cons_of_ok hcue)
    | error e t =>
      have hleft := (performed h hnext).of_error hcue
      obtain ⟨htracks, f, rfl, hfails⟩ := hleft.error e rfl
      rw [Yields, performEach_cons_of_error hcue]
      exact
        { work := hleft.work
          early := hleft.early
          ok := fun a ha => by cases ha
          error := fun e he => by
            cases he
            rw [ledger_cons_of_error hcue]
            exact ⟨f, [], cue, cues, rfl, rfl, ⟨s, rfl, hcue, .refl _, hfails⟩,
              ⟨collecting, htracks⟩, by simpa using hleft.beats⟩ }

/-- The samples that cues add have the names of the collectors. -/
theorem names_ledger (h : Tracks s₀ l collecting s) (hfits : bracketAll collecting cues = some after)
    (hl : ∀ x ∈ l.samples, x.values.names = (values s₀.run).names) :
    ∀ x ∈ (ledger token l cues s).samples, x.values.names = (values s₀.run).names := by
  induction cues generalizing s l collecting with
  | nil => exact hl
  | cons cue cues ih =>
    obtain ⟨next, hnext, hrest⟩ := Option.bind_eq_some_iff.1 hfits
    cases hcue : cue.perform token s with
    | error e t =>
      rw [ledger_cons_of_error hcue]
      exact hl
    | ok a t =>
      rw [ledger_cons_of_ok hcue]
      refine ih ((performed h hnext).of_ok hcue |>.ok a rfl) hrest ?_
      cases cue with
      | write =>
        intro x hx
        rcases List.mem_append.1 hx with hx | hx
        · exact hl x hx
        · rw [List.mem_singleton.1 hx, names_values, names_values, h.onward.labels]
      | checkpoint | hook | start | stop => exact hl

end Cue

/-! ## The cues of a run -/

namespace Session

open Cue

variable {κ : Type}

/-- The calls of the body in one iteration, with a checkpoint between two of them. -/
def bodyCues (first : Bool) : Nat → List Cue
  | 0 => []
  | n + 1 => (if first then [] else [checkpoint]) ++ .hook .body :: bodyCues false n

def warmupCues (s : Session κ) : List Cue :=
  checkpoint :: .hook .before :: (bodyCues true s.run.config.repetitions ++ [.hook .after])

def measuredCues (s : Session κ) : List Cue :=
  checkpoint :: .hook .before :: start ::
    (bodyCues true s.run.config.repetitions ++ [stop, write, .hook .after])

def warmupPart (s : Session κ) : List Cue :=
  (List.replicate s.run.config.warmup s.warmupCues).flatten

def measuredPart (s : Session κ) (n : Nat) : List Cue := (List.replicate n s.measuredCues).flatten

/-- The cues before the measured iterations: those of iterations that are not measured, or none. -/
def leadCues (s : Session κ) (warm : Bool) : List Cue := if warm then s.warmupPart else []

/-- The cues of a number of measured iterations, with those before them. -/
def loopCues (s : Session κ) (warm : Bool) (n : Nat) : List Cue :=
  s.leadCues warm ++ s.measuredPart n

/-- The cues of a run with a number of measured iterations. -/
def cues (s : Session κ) (n : Nat) : List Cue := s.warmupPart ++ s.measuredPart n

theorem measuredPart_succ (s : Session κ) (n : Nat) :
    s.measuredPart (n + 1) = s.measuredCues ++ s.measuredPart n := by
  rw [measuredPart, List.replicate_succ, List.flatten_cons]
  rfl

/-! ### The bracket -/

theorem bracketAll_append {first : List Cue} {collecting now : Bool}
    (h : bracketAll collecting first = some now) (second : List Cue) :
    bracketAll collecting (first ++ second) = bracketAll now second := by
  rw [bracketAll, List.foldlM_append]
  exact congrArg (· >>= _) h

/-- The body is called inside the bracket or outside of it. -/
theorem bracketAll_bodyCues (collecting first : Bool) (n : Nat) :
    bracketAll collecting (bodyCues first n) = some collecting := by
  induction n generalizing first with
  | zero => rfl
  | succ n ih => cases first <;> exact ih false

theorem bracketAll_flatten_replicate {round : List Cue} (h : bracketAll false round = some false)
    (n : Nat) : bracketAll false (List.replicate n round).flatten = some false := by
  induction n with
  | zero => rfl
  | succ n ih => rwa [List.replicate_succ, List.flatten_cons, bracketAll_append h]

theorem bracketAll_warmupCues (s : Session κ) : bracketAll false s.warmupCues = some false :=
  bracketAll_append (bracketAll_bodyCues false true _) [.hook .after]

theorem bracketAll_measuredCues (s : Session κ) : bracketAll false s.measuredCues = some false :=
  bracketAll_append (bracketAll_bodyCues true true _) [stop, write, .hook .after]

theorem bracketAll_warmupPart (s : Session κ) : bracketAll false s.warmupPart = some false :=
  bracketAll_flatten_replicate s.bracketAll_warmupCues _

theorem bracketAll_measuredPart (s : Session κ) (n : Nat) :
    bracketAll false (s.measuredPart n) = some false :=
  bracketAll_flatten_replicate s.bracketAll_measuredCues n

theorem bracketAll_leadCues (s : Session κ) (warm : Bool) :
    bracketAll false (s.leadCues warm) = some false := by
  cases warm with
  | true => exact s.bracketAll_warmupPart
  | false => rfl

/-- Every iteration closes the bracket that it opens. -/
theorem bracketAll_loopCues (s : Session κ) (warm : Bool) (n : Nat) :
    bracketAll false (s.loopCues warm n) = some false :=
  (bracketAll_append (s.bracketAll_leadCues warm) _).trans (s.bracketAll_measuredPart n)

theorem bracketAll_cues (s : Session κ) (n : Nat) : bracketAll false (s.cues n) = some false :=
  s.bracketAll_loopCues true n

/-- No bracket opens before the measured iterations. -/
theorem bracket_of_mem_leadCues (s : Session κ) (warm : Bool) : ∀ cue ∈ s.leadCues warm,
    cue.bracket false = some false := by
  have hbody (first : Bool) (n : Nat) : ∀ cue ∈ bodyCues first n,
      cue.bracket false = some false := by
    induction n generalizing first with
    | zero => exact fun _ hcue => by cases hcue
    | succ n ih => cases first <;> simpa [bodyCues, bracket] using ih false
  intro cue hcue
  cases warm with
  | false => cases hcue
  | true =>
    obtain ⟨round, hround, hcue⟩ := List.mem_flatten.1 hcue
    rw [List.eq_of_mem_replicate hround] at hcue
    simp only [warmupCues, List.mem_cons, List.mem_append, List.not_mem_nil, or_false] at hcue
    rcases hcue with rfl | rfl | hcue | rfl
    · rfl
    · rfl
    · exact hbody true _ cue hcue
    · rfl

/-! ### Samples -/

theorem count_write_bodyCues (first : Bool) (n : Nat) : (bodyCues first n).count write = 0 := by
  induction n generalizing first with
  | zero => rfl
  | succ n ih => cases first <;> simp [bodyCues, ih]

theorem count_write_warmupPart (s : Session κ) : s.warmupPart.count write = 0 := by
  have hround : s.warmupCues.count write = 0 := by simp [warmupCues, count_write_bodyCues]
  simp [warmupPart, List.count_flatten, hround]

/-- A measured iteration writes one sample. -/
theorem count_write_measuredCues (s : Session κ) : s.measuredCues.count write = 1 := by
  simp [measuredCues, count_write_bodyCues]

theorem count_write_leadCues (s : Session κ) (warm : Bool) :
    (s.leadCues warm).count write = 0 := by
  cases warm with
  | true => exact s.count_write_warmupPart
  | false => rfl

theorem count_write_loopCues (s : Session κ) (warm : Bool) (n : Nat) :
    (s.loopCues warm n).count write = n := by
  simp [loopCues, measuredPart, List.count_flatten, count_write_leadCues, count_write_measuredCues]

theorem count_write_cues (s : Session κ) (n : Nat) : (s.cues n).count write = n :=
  s.count_write_loopCues true n

end Session

end Gauge
