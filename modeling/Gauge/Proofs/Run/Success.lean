import Gauge.Proofs.Run.Convergence
import Gauge.Proofs.Run.Finality

/-!
# Runs that succeed

A run can fail at any of its steps, a collector can break off, a sample may not fit, and after some
time nobody may wait any more.  Where a run succeeds in spite of all this, it has made the calls of
its whole schedule, none of them has failed, and its samples are complete.

## Main definitions

* `Step.Succeeds` — what a step has done if it succeeds.
* `Session.Advances` — a session in which nothing has failed so far.
* `Session.Succeeded` — what is left of a run that succeeds.

## Main statements

* `Run.succeeds_iterate` — a measured iteration that succeeds adds a sample.
* `Run.succeeds_measureFrom` — the measured iterations.
* `Run.succeeded_of_ok` — a whole run.
-/

namespace Gauge

/-! ## Steps that succeed -/

namespace Step

variable {κ : Type} {s t : Session κ} {x y : Step κ Unit} {L M : List Beat}
  {P P' Q Q' R : Session κ → Prop}

/-- If a step succeeds, then the session after it has a property. -/
def Ensures (x : Step κ Unit) (s : Session κ) (Q : Session κ → Prop) : Prop :=
  Yields x s fun r t => r = .ok () → Q t

theorem Ensures.mono (h : Ensures x s Q) (hQ : ∀ t, Q t → R t) : Ensures x s R :=
  Yields.mono h fun _ t ht hr => hQ t (ht hr)

theorem Ensures.bind (hx : Ensures x s Q) (hy : ∀ t, Q t → Ensures y t R) :
    Ensures (x >>= fun _ => y) s R := by
  rw [Ensures, yields_bind]
  refine Yields.mono hx fun r t ht => ?_
  cases r with
  | ok a => exact hy t (ht rfl)
  | error e => exact fun he => by cases he

/-- A settled step whose failure the rest hands on. -/
theorem Ensures.bind_settle {f : Except Failure Unit → Step κ Unit} (hx : Ensures x s Q)
    (hy : ∀ t, Q t → Ensures (f (.ok ())) t R)
    (hfails : ∀ failure t, Ensures (f (.error failure)) t fun _ => False) :
    Ensures (settle x >>= f) s R := by
  rw [Ensures, yields_bind, yields_settle]
  refine Yields.mono hx fun r t ht => ?_
  cases r with
  | ok a => exact hy t (ht rfl)
  | error e =>
    cases e with
    | failure failure => exact (hfails failure t).mono fun _ hfalse => hfalse.elim
    | panic p => exact fun he => by cases he
    | abandoned => exact fun he => by cases he

theorem ensures_theRun {f : Run κ → Step κ Unit} (h : Ensures (f s.run) s Q) :
    Ensures (theRun >>= f) s Q := by
  rw [Ensures, yields_bind, yields_theRun]
  exact h

theorem ensures_modifyRun {f : Run κ → Run κ} (h : Q { s with run := f s.run }) :
    Ensures (modifyRun f) s Q := fun _ => h

theorem ensures_fail {f : Failure} : Ensures (fail f) s Q := fun he => by cases he

/-- A step that has played calls if it succeeds, and none of them has failed.  From a session with
`P` it leaves one with `Q` then; nothing is said of a step that does not succeed. -/
def Succeeds (x : Step κ Unit) (L : List Beat) (P Q : Session κ → Prop) : Prop :=
  ∀ s, P s → Ensures x s (Played s L (fun _ => []) Q Q (.ok ()))

theorem succeeds_pure : Succeeds (pure ()) [] P P :=
  fun _ hs _ => played_of_ok rfl rfl (List.append_nil _).symm hs

theorem Succeeds.bind (hx : Succeeds x L P Q) (hy : Succeeds y M Q R) :
    Succeeds (x >>= fun _ => y) (L ++ M) P R := by
  intro s hs
  refine (hx s hs).bind fun t ht => ?_
  exact (hy t ht.of_ok.2.2.2).mono fun u hu => ht.append_ok hu

theorem Succeeds.bind_settle {f : Except Failure Unit → Step κ Unit} (hx : Succeeds x L P Q)
    (hy : Succeeds (f (.ok ())) M Q R)
    (hfails : ∀ failure t, Ensures (f (.error failure)) t fun _ => False) :
    Succeeds (settle x >>= f) (L ++ M) P R := by
  intro s hs
  refine (hx s hs).bind_settle (fun t ht => ?_) hfails
  exact (hy t ht.of_ok.2.2.2).mono fun u hu => ht.append_ok hu

/-- A step that looks at its run first. -/
theorem succeeds_theRun {f : Run κ → Step κ Unit} (h : ∀ s, P s → Succeeds (f s.run) L P Q) :
    Succeeds (theRun >>= f) L P Q :=
  fun s hs => ensures_theRun (h s hs s hs)

theorem Succeeds.mono (h : Succeeds x L P Q) (hP : ∀ s, P' s → P s) (hQ : ∀ s, Q s → Q' s) :
    Succeeds x L P' Q' := by
  intro s hs
  exact (h s (hP s hs)).mono fun t ht => ht.mono (hQ t) (hQ t) fun _ _ => rfl

theorem succeeds_exists {ι : Type} {P : ι → Session κ → Prop} (h : ∀ i, Succeeds x L (P i) Q) :
    Succeeds x L (fun s => ∃ i, P i s) Q :=
  fun s ⟨i, hs⟩ => h i s hs

/-- A step that calls collectors only. -/
theorem succeeds_collectors {names : List String} {call : Call}
    (h : ∀ s, P s → Ensures x s fun t => t.work = s.work ∧
      t.world.beats = s.world.beats ++ names.map (.collector call) ∧ Q t) :
    Succeeds x (names.map (.collector call)) P Q := by
  intro s hs
  refine (h s hs).mono fun t ht => ?_
  obtain ⟨hwork, hbeats, hQ⟩ := ht
  have hplay := s.work.play_map_collector call names
  exact played_of_ok (by rw [hplay]) (by rw [hplay, hwork]) (by rw [hplay, hbeats]) hQ

end Step

/-! ## Hooks -/

/-- An action that succeeds is one without a failure. -/
theorem Action.answer_of_ok {ε : Type} {token : Token} {a : Action} {w v : World ε} {u : Unit}
    (h : (a.perform token : Act ε Unit) w = .ok u v) : a.answer = .ok () := by
  induction a generalizing w v u with
  | fail error => cases h
  | panic p => cases h
  | andThen first second ihFirst ihSecond =>
    cases hfirst : (first.perform token : Act ε Unit) w with
    | error e v' => cases h.symm.trans (bind_of_error hfirst fun _ => second.perform token)
    | ok _ v' =>
      have hsecond := h.symm.trans (bind_of_ok hfirst fun _ => second.perform token)
      rw [answer, ihFirst hfirst]
      exact ihSecond hsecond.symm
  | succeed | cancel | sleep | pause | allocate => rfl

namespace Step

variable {κ : Type} {s : Session κ} {token : Token}

/-- The action of a hook that succeeds does not fail. -/
theorem ensures_unfailing (token : Token) (stage : Stage) (s : Session κ) :
    Ensures (callHook token stage) s fun _ =>
      ∀ action work, s.work.next? stage = some (action, work) → action.failure? = none := by
  simp only [Ensures, callHook, yields_bind, yields_get]
  cases hnext : s.work.next? stage with
  | none => exact fun _ _ _ he => by cases he
  | some called =>
    obtain ⟨action, work⟩ := called
    simp only [yields_bind, yields_modify, yields_inWorld, World.log]
    rw [yields_guarded, yields_inWorld, yields_bind]
    refine (yields_true _ _).mono fun r v _ => ?_
    cases r with
    | error e =>
      intro he
      cases e <;> cases he
    | ok _ =>
      cases hperform : (action.perform token : Act (Event κ) Unit) v with
      | error e u =>
        rw [Yields, hperform]
        intro he
        cases e <;> cases he
      | ok a u =>
        rw [Yields, hperform]
        rintro - action' work' he
        cases he
        have hanswer := action.inHook_answer
        rw [Action.answer_of_ok hperform] at hanswer
        cases hfailure : action.failure? with
        | none => rfl
        | some f =>
          rw [hfailure] at hanswer
          cases hanswer

end Step

/-! ## A session that advances -/

namespace Session

variable {κ : Type} {s₀ s t : Session κ} {l : Ledger} {collecting stopped : Bool}

/-- A session that began as `s₀` and in which nothing has failed so far: its store follows a ledger,
and the frames of all samples but the latest one are written. -/
structure Advances (s₀ : Session κ) (l : Ledger) (collecting stopped : Bool) (s : Session κ) :
    Prop where
  onward : s₀.Onward s
  order : ∃ order, s.run.order = some order ∧
    order.filterMap (fun i => s₀.run.labels[i]?.map (·.1)) = s₀.run.startNames
  collecting : s.run.collecting = collecting
  store : ∃ w, s.run.store = .writing w ∧ w.Follows l ∧
    w.mode = .ofPlanned s₀.run.config.executions
  fits : StoreMode.ofPlanned s₀.run.config.executions = .spooled →
    ∀ x ∈ l.samples.dropLast, Ledger.Fits x
  executions : s.run.executions = l.samples.length
  status : s.run.status = .open
  early : s.run.earlyStopped = stopped

/-- A session advances as long as its run stays. -/
theorem Advances.of_run_eq (h : Advances s₀ l collecting stopped s) (hst : s.Onward t)
    (hrun : t.run = s.run) : Advances s₀ l collecting stopped t where
  onward := h.onward.trans hst
  order := hrun ▸ h.order
  collecting := hrun ▸ h.collecting
  store := hrun ▸ h.store
  fits := h.fits
  executions := hrun ▸ h.executions
  status := hrun ▸ h.status
  early := hrun ▸ h.early

/-- A session advances where only its collectors change. -/
theorem Advances.of_collectors (h : Advances s₀ l collecting stopped s) (hst : s.Onward t)
    (hrun : t.run = { s.run with collectors := t.run.collectors }) :
    Advances s₀ l collecting stopped t where
  onward := h.onward.trans hst
  order := by rw [hrun]; exact h.order
  collecting := by rw [hrun]; exact h.collecting
  store := by rw [hrun]; exact h.store
  fits := h.fits
  executions := by rw [hrun]; exact h.executions
  status := by rw [hrun]; exact h.status
  early := by rw [hrun]; exact h.early

/-- A new session advances once its order is settled. -/
theorem Fresh.advances (h : s.Fresh) : s.Advances {} false false s.prepared where
  onward := onward_run rfl rfl rfl
  order := ⟨_, rfl, s.run.filterMap_startOrder⟩
  collecting := congrArg Run.collecting h.run_eq
  store := ⟨_, congrArg Run.store h.run_eq, Writer.follows_ofMode _, Writer.mode_ofMode _⟩
  fits := fun _ _ hx => by cases hx
  executions := congrArg Run.executions h.run_eq
  status := congrArg Run.status h.run_eq
  early := congrArg Run.earlyStopped h.run_eq

end Session

/-! ## Parts of a run -/

namespace Run

open Session Step

variable {κ : Type} {s₀ s : Session κ} {token : Token} {l : Ledger} {collecting stopped : Bool}

/-- A checkpoint is passed without a call. -/
theorem succeeds_checkpoint : Succeeds (inWorld (World.checkpoint token)) []
    (Advances s₀ l collecting stopped) (Advances s₀ l collecting stopped) := by
  intro s hs
  rw [Ensures, yields_inWorld]
  refine (World.answers_checkpoint token s.world).mono fun r w hw hr => ?_
  refine played_of_ok rfl rfl ?_ (hs.of_run_eq (onward_world hw.1.toLater) rfl)
  rw [hw.1.beats]
  exact (List.append_nil _).symm

/-- A hook is called, if there is one, and it does not fail. -/
theorem succeeds_callHook (stage : Stage) : Succeeds (callHook token stage)
    (s₀.work.beatOf stage) (Advances s₀ l collecting stopped)
    (Advances s₀ l collecting stopped) := by
  intro s hs
  have hbeat : s₀.work.beatOf stage = s.work.beatOf stage := by
    rw [Workload.beatOf, Workload.beatOf, hs.onward.hooks]
  have hplay := s.work.play_beatOf stage
  rw [hbeat]
  refine ((yields_callHook token stage s).and (ensures_unfailing token stage s)).mono ?_
  rintro r t ⟨⟨hnext, -, rfl⟩ | ⟨action, h⟩, hok⟩ hr
  · rw [hnext] at hplay
    exact played_of_ok (by rw [hplay]) (by rw [hplay]) (by simp [hplay]) hs
  · rw [h.next] at hplay
    simp only [hok hr action t.work h.next, Option.map_none] at hplay
    have hnow : Advances s₀ l collecting stopped t := hs.of_run_eq h.onward h.run
    exact played_of_ok (by rw [hplay]) (by rw [hplay]) (by rw [hplay, h.beats]) hnow

/-- The calls of the body, with a checkpoint between two of them. -/
theorem succeeds_repeatBody (first : Bool) (n : Nat) : Succeeds (repeatBody token first n)
    (List.replicate n (.hook .body)) (Advances s₀ l collecting stopped)
    (Advances s₀ l collecting stopped) := by
  induction n generalizing first with
  | zero => exact succeeds_pure
  | succ n ih =>
    have hcall : Succeeds (do callHook token .body; repeatBody token false n)
        (List.replicate (n + 1) (.hook .body)) (Advances s₀ l collecting stopped)
        (Advances s₀ l collecting stopped) := (succeeds_callHook .body).bind (ih false)
    cases first with
    | true => exact hcall
    | false => exact succeeds_checkpoint.bind hcall

theorem succeeds_runBody : Succeeds (runBody token) s₀.bodies
    (Advances s₀ l collecting stopped) (Advances s₀ l collecting stopped) := by
  refine succeeds_theRun fun s hs => ?_
  rw [bodies, ← hs.onward.config]
  exact succeeds_repeatBody true _

/-- Iterations that are not measured. -/
theorem succeeds_warmupFor (n : Nat) : Succeeds (warmupFor token n)
    (List.replicate n s₀.warmupRound).flatten (Advances s₀ l collecting stopped)
    (Advances s₀ l collecting stopped) := by
  induction n with
  | zero => exact succeeds_pure
  | succ n ih =>
    have hafter : Succeeds (do callHook token .after; warmupFor token n)
        (s₀.work.beatOf .after ++ (List.replicate n s₀.warmupRound).flatten)
        (Advances s₀ l collecting stopped) (Advances s₀ l collecting stopped) :=
      (succeeds_callHook .after).bind ih
    rw [warmupFor, List.replicate_succ, List.flatten_cons, warmupRound, List.append_assoc,
      List.append_assoc]
    exact succeeds_checkpoint.bind
      ((succeeds_callHook .before).bind (succeeds_runBody.bind hafter))

theorem succeeds_warmup : Succeeds (warmup token) s₀.warmupBeats
    (Advances s₀ l collecting stopped) (Advances s₀ l collecting stopped) := by
  refine succeeds_theRun fun s hs => ?_
  rw [warmupBeats, ← hs.onward.config]
  exact succeeds_warmupFor _

variable [Device κ]

/-! ### The bracket -/

/-- A collector that does not break off is heard once. -/
theorem ensures_callCollector (call : Call) (i : Nat) (s : Session κ) :
    Ensures (callCollector call i) s fun t => s.Onward t ∧ t.work = s.work ∧
      t.world.beats = s.world.beats ++
        (s.run.labels[i]?.map fun e => .collector call e.1).toList := by
  have hlabel : s.run.labels[i]? = s.run.collectors[i]?.map fun c => (c.name, c.priority) := by
    rw [labels, List.getElem?_map]
  have honward := onwards_callCollector call i s
  suffices hheard : Ensures (callCollector call i) s fun t => t.work = s.work ∧
      t.world.beats = s.world.beats ++
        (s.run.labels[i]?.map fun e => .collector call e.1).toList from
    (honward.and hheard).mono fun r t ht hr => ⟨ht.1, ht.2 hr⟩
  simp only [Ensures, callCollector, yields_bind, yields_theRun]
  cases hc : s.run.collectors[i]? with
  | none =>
    rw [hc] at hlabel
    exact fun _ => ⟨rfl, by simp [hlabel]⟩
  | some c =>
    rw [hc] at hlabel
    simp only [yields_bind, yields_inWorld, World.log, yields_modify]
    refine (World.yields_tick _).mono ?_
    rintro r w ⟨hsilent, -⟩
    have hbeats : w.beats = s.world.beats ++ [.collector call c.name] := by
      rw [hsilent.beats, World.beats_log]
      rfl
    cases r with
    | error e => exact fun he => by cases he
    | ok _ =>
      simp only [yields_get]
      cases call.apply c.device w.readings with
      | error p => exact fun he => by cases he
      | ok device => exact fun _ => ⟨rfl, by simpa [hlabel] using hbeats⟩

/-- Collectors that do not break off are heard one after another. -/
theorem ensures_callCollectors (call : Call) (order : List Nat) (s : Session κ) :
    Ensures (callCollectors call order) s fun t => t.work = s.work ∧
      t.world.beats = s.world.beats ++
        (order.filterMap fun i => s.run.labels[i]?.map (·.1)).map (.collector call) := by
  induction order generalizing s with
  | nil => exact fun _ => ⟨rfl, by simp⟩
  | cons i order ih =>
    rw [callCollectors_cons]
    refine (ensures_callCollector call i s).bind fun t ⟨honward, hwork, hbeats⟩ => ?_
    refine (ih t).mono fun u ⟨hwork', hbeats'⟩ => ⟨hwork'.trans hwork, ?_⟩
    rw [hbeats', hbeats, honward.labels, List.append_assoc]
    cases hi : s.run.labels[i]? with
    | none => simp [hi]
    | some e => simp [hi]

/-- A session advances through calls of collectors. -/
theorem advances_callCollectors (h : Advances s₀ l collecting stopped s) (call : Call)
    (order : List Nat) : Ensures (callCollectors call order) s fun t =>
      Advances s₀ l collecting stopped t ∧ t.work = s.work ∧
      t.world.beats = s.world.beats ++
        (order.filterMap fun i => s₀.run.labels[i]?.map (·.1)).map (.collector call) := by
  refine Yields.mono ((ensures_callCollectors call order s).and
    ((onwards_callCollectors call order s).and (frame_callCollectors call order s))) ?_
  rintro r t ⟨hheard, honward, hrun⟩ hr
  rw [← h.onward.labels]
  exact ⟨h.of_collectors honward hrun, hheard hr⟩

/-- A start notes the time and calls every collector in start order. -/
theorem succeeds_start : Succeeds (start s₀.run.mode) s₀.run.starts
    (Advances s₀ l false stopped)
    (fun t => ∃ noted, Advances s₀ { l with noted := noted } true stopped t) := by
  refine succeeds_collectors fun s hs => ?_
  obtain ⟨order, horder, hnames⟩ := hs.order
  obtain ⟨w, hstore, hfollows, hmode⟩ := hs.store
  have hnoted := Writer.follows_perform hfollows (.start s.millis)
  have hnow : Advances s₀ { l with noted := some s.millis } false stopped
      { s with run := { s.run with store := .writing (w.noteStart s.millis) } } :=
    { onward := hs.onward.trans (onward_run rfl rfl rfl)
      order := hs.order
      collecting := hs.collecting
      store := ⟨_, rfl, hnoted.2.1, hnoted.2.2.trans hmode⟩
      fits := hs.fits
      executions := hs.executions
      status := hs.status
      early := hs.early }
  have hcalls : Ensures (do
      callCollectors s₀.run.mode.call order
      modifyRun fun r => { r with collecting := true })
      { s with run := { s.run with store := .writing (w.noteStart s.millis) } } fun t =>
        t.work = s.work ∧ t.world.beats = s.world.beats ++ s₀.run.starts ∧
          ∃ noted, Advances s₀ { l with noted := noted } true stopped t := by
    refine (advances_callCollectors hnow s₀.run.mode.call order).bind ?_
    rintro t ⟨hadvances, hwork, hbeats⟩
    refine ensures_modifyRun ⟨hwork, ?_, some s.millis, ?_⟩
    · rw [starts, ← hnames]
      exact hbeats
    · exact
        { hadvances with
          onward := hadvances.onward.trans (onward_run rfl rfl rfl)
          collecting := rfl }
  refine Yields.congr hcalls ?_
  have hrun : (theRun : Step κ (Run κ)) s = .ok s.run s := rfl
  rw [start, bind_of_ok hrun, horder, hstore, hs.collecting]
  rfl

/-- All collectors are called in reverse start order. -/
theorem advances_stopCollectors (h : Advances s₀ l collecting stopped s) :
    Ensures stopCollectors s fun t => Advances s₀ l false stopped t ∧
      t.work = s.work ∧ t.world.beats = s.world.beats ++ s₀.run.stops := by
  obtain ⟨order, horder, hnames⟩ := h.order
  refine ensures_theRun ?_
  rw [horder, Option.getD_some]
  refine (advances_callCollectors h .stop order.reverse).bind ?_
  rintro t ⟨hadvances, hwork, hbeats⟩
  refine ensures_modifyRun ⟨?_, hwork, ?_⟩
  · exact
      { hadvances with
        onward := hadvances.onward.trans (onward_run rfl rfl rfl)
        collecting := rfl }
  · rw [stops, ← hnames, ← List.filterMap_reverse]
    exact hbeats

/-- A sample that is accepted follows the others; the frame of the one before it was written. -/
theorem advances_writeSample {w : Writer} (h : Advances s₀ l collecting stopped s)
    (hfollows : w.Follows l) (hmode : w.mode = .ofPlanned s₀.run.config.executions) :
    Ensures (writeSample w) s fun t =>
      Advances s₀ (l.perform (.write (values s.run))).2 collecting stopped t ∧
        t.work = s.work ∧ t.world = s.world := by
  obtain ⟨hanswer, hwritten, hmode'⟩ := Writer.follows_write hfollows (values s.run)
  refine ensures_theRun ?_
  generalize w.write (values s.run) = written at hanswer hwritten hmode' ⊢
  obtain ⟨result, w'⟩ := written
  simp only at hanswer hwritten hmode'
  cases result with
  | error fault => exact fun he => by cases he
  | ok _ =>
    have hfits : StoreMode.ofPlanned s₀.run.config.executions = .spooled →
        ∀ x ∈ (l.perform (.write (values s.run))).2.samples.dropLast, Ledger.Fits x := by
      intro hspooled
      rw [hmode.trans hspooled] at hanswer
      rw [Ledger.perform, List.dropLast_concat]
      exact Ledger.fits_of_answer (h.fits hspooled) hanswer.symm
    have hcounted : w'.mode = .buffered ∨
        ∀ x ∈ (l.perform (.write (values s.run))).2.samples.dropLast, Ledger.Fits x := by
      cases hm : w'.mode with
      | buffered => exact .inl rfl
      | spooled => exact .inr (hfits (hmode.symm.trans (hmode'.symm.trans hm)))
    refine fun _ => ⟨?_, rfl, rfl⟩
    exact
      { onward := h.onward.trans (onward_run rfl rfl rfl)
        order := h.order
        collecting := h.collecting
        store := ⟨w', rfl, hwritten, hmode'.trans hmode⟩
        fits := hfits
        executions := Writer.count_of_follows hwritten hcounted
        status := h.status
        early := h.early }

/-- A stop calls every collector in reverse start order, and adds a sample. -/
theorem succeeds_stop : Succeeds stop s₀.run.stops (Advances s₀ l true stopped)
    (fun t => ∃ sample, Advances s₀ { samples := l.samples ++ [sample] } false stopped t) := by
  refine succeeds_collectors fun s hs => ?_
  obtain ⟨w, hstore, hfollows, hmode⟩ := hs.store
  have hclosed : Ensures (do stopCollectors; writeSample w) s fun t => t.work = s.work ∧
      t.world.beats = s.world.beats ++ s₀.run.stops ∧
        ∃ sample, Advances s₀ { samples := l.samples ++ [sample] } false stopped t := by
    refine (advances_stopCollectors hs).bind fun t ⟨hadvances, hwork, hbeats⟩ => ?_
    refine (advances_writeSample hadvances hfollows hmode).mono ?_
    rintro u ⟨hwritten, hwork', hworld⟩
    exact ⟨hwork'.trans hwork, by rw [hworld, hbeats], _, hwritten⟩
  refine Yields.congr hclosed ?_
  have hrun : (theRun : Step κ (Run κ)) s = .ok s.run s := rfl
  rw [stop, bind_of_ok hrun, hstore, hs.collecting]
  rfl

/-- **A measured iteration that succeeds adds a sample.** -/
theorem succeeds_iterate : Succeeds (iterate token) s₀.measuredRound (Advances s₀ l false stopped)
    (fun t => ∃ sample, Advances s₀ { samples := l.samples ++ [sample] } false stopped t) := by
  have hafter : Succeeds (callHook token .after) (s₀.work.beatOf .after)
      (fun t => ∃ sample, Advances s₀ { samples := l.samples ++ [sample] } false stopped t)
      (fun t => ∃ sample, Advances s₀ { samples := l.samples ++ [sample] } false stopped t) :=
    succeeds_exists fun sample =>
      (succeeds_callHook .after).mono (fun _ hs => hs) fun t ht => ⟨sample, ht⟩
  refine (succeeds_callHook .before).bind (succeeds_theRun fun s hs => ?_)
  rw [hs.onward.mode]
  refine succeeds_start.bind (succeeds_exists fun noted => ?_)
  refine succeeds_runBody.bind_settle (succeeds_stop.bind hafter) fun failure t => ?_
  exact Ensures.bind (Q := fun _ => True) ((yields_true _ t).mono fun _ _ _ _ => trivial)
    fun _ _ => ensures_fail

theorem succeeds_checkedIterate :
    Succeeds (do inWorld (World.checkpoint token); iterate token) s₀.measuredRound
      (Advances s₀ l false stopped)
      (fun t => ∃ sample, Advances s₀ { samples := l.samples ++ [sample] } false stopped t) :=
  succeeds_checkpoint.bind succeeds_iterate

end Run

/-! ## The measured iterations -/

namespace Configuration

/-- A number of measured iterations, the last of them after some samples, out of those planned: all
of them, or fewer, if the rule for stopping early holds after these samples. -/
inductive Measures (config : Configuration) (samples : List Sample) : Nat → Nat → Bool → Prop
  | all (n : Nat) : Measures config samples n n false
  | early {m n : Nat} (hfirst : 1 ≤ m) (hplanned : m ≤ n) (hstops : config.stopsAfter samples) :
      Measures config samples m n true

/-- Where all samples are those of the measured iterations, their number is the planned one, or it is
admissible. -/
theorem Measures.enough {config : Configuration} {samples : List Sample} {stopped : Bool}
    (h : config.Measures samples samples.length config.executions stopped) :
    stopped = false ∧ samples.length = config.executions ∨
      stopped = true ∧ config.Admissible samples samples.length := by
  generalize hlength : samples.length = m at h
  generalize hplanned : config.executions = n at h
  cases h with
  | all => exact .inl ⟨rfl, rfl⟩
  | early hfirst hle hstops =>
    refine .inr ⟨rfl, (stopsAfter_take_iff hfirst (hplanned ▸ hle) hlength.ge).1 ?_⟩
    rwa [List.take_of_length_le hlength.le]

end Configuration

namespace Run

open Session Step

variable {κ : Type} [Device κ] {s₀ s : Session κ} {token : Token} {l : Ledger} {stopped : Bool}

/-- **The measured iterations that succeed** add a sample each, and end as planned or early. -/
theorem succeeds_measureFrom {k : Nat} (hk : l.samples.length = k) (n : Nat)
    (h : Advances s₀ l false false s) :
    Ensures (measureFrom token (k + 1) n) s fun t => ∃ l' m stopped,
      l'.samples.length = k + m ∧ s₀.run.config.Measures l'.samples m n stopped ∧
        Played s (s₀.measuredBeats m) (fun _ => []) (Advances s₀ l' false stopped)
          (Advances s₀ l' false stopped) (.ok ()) t := by
  induction n generalizing k l s with
  | zero =>
    exact fun _ => ⟨l, 0, false, hk, .all 0, played_of_ok rfl rfl (List.append_nil _).symm h⟩
  | succ n ih =>
    rw [measureFrom, ← bind_assoc]
    refine (succeeds_checkedIterate s h).bind fun t ht => ensures_theRun ?_
    obtain ⟨hL, hwork, hbeats, sample, hadvances⟩ := ht.of_ok
    have hlength : (l.samples ++ [sample]).length = k + 1 := by simp [hk]
    obtain ⟨w, hstore, hfollows, -⟩ := hadvances.store
    have hconverged := converged_of_follows hstore hfollows
    rw [hlength, hadvances.onward.config] at hconverged
    rw [hconverged]
    cases hstops : s₀.run.config.stopsAfter (l.samples ++ [sample]) with
    | true =>
      have hstopped : Advances s₀ { samples := l.samples ++ [sample] } false true
          { t with run := { t.run with earlyStopped := true } } :=
        { hadvances with
          onward := hadvances.onward.trans (onward_run rfl rfl rfl)
          early := rfl }
      refine fun _ => ⟨{ samples := l.samples ++ [sample] }, 1, true, hlength,
        .early le_rfl (by omega) hstops, ?_⟩
      rw [measuredBeats_succ, measuredBeats, List.replicate_zero, List.flatten_nil,
        List.append_nil]
      exact played_of_ok hL hwork hbeats hstopped
    | false =>
      refine (ih hlength hadvances).mono fun u hu => ?_
      obtain ⟨l', m, stopped, hlength', hmeasures, hplayed⟩ := hu
      refine ⟨l', m + 1, stopped, by omega, ?_, ?_⟩
      · cases hmeasures with
        | all => exact .all (n + 1)
        | early hfirst hplanned hstops => exact .early (by omega) (by omega) hstops
      · rw [measuredBeats_succ]
        exact ht.append_ok hplayed

/-- What ends with a failure does not succeed. -/
theorem ensures_finalize_false (f : Failure) (s : Session κ) :
    Ensures (finalize (some f)) s fun _ => False :=
  Yields.intro (fun a t h _ => finalize_ne_ok f s t a h) fun _ _ _ he => by cases he

/-- The measured iterations of a run that succeeds. -/
theorem succeeds_mainLoop (h : Advances s₀ {} false false s) :
    Ensures (mainLoop token) s fun t => ∃ l stopped,
      s₀.run.config.Measures l.samples l.samples.length s₀.run.config.executions stopped ∧
      Played s (s₀.measuredBeats l.samples.length) (fun _ => []) (Advances s₀ l false stopped)
        (Advances s₀ l false stopped) (.ok ()) t := by
  have hmeasure : Ensures (measure token) s fun t => ∃ l stopped,
      s₀.run.config.Measures l.samples l.samples.length s₀.run.config.executions stopped ∧
      Played s (s₀.measuredBeats l.samples.length) (fun _ => []) (Advances s₀ l false stopped)
        (Advances s₀ l false stopped) (.ok ()) t := by
    refine ensures_theRun ?_
    rw [h.onward.config]
    refine (succeeds_measureFrom rfl s₀.run.config.executions h).mono ?_
    rintro t ⟨l, m, stopped, hlength, hmeasures, hplayed⟩
    have hm : l.samples.length = m := hlength.trans (Nat.zero_add m)
    subst hm
    exact ⟨l, stopped, hmeasures, hplayed⟩
  exact hmeasure.bind_settle (fun t ht _ => ht) ensures_finalize_false

/-! ### The end of a run -/

/-- Sealing that succeeds shows all samples. -/
theorem sealed_of_ok (h : Advances s₀ l false stopped s) :
    Ensures (finalize none) s (Sealed s₀ l false s none (.ok ())) := by
  obtain ⟨w, hstore, hfollows, hmode⟩ := h.store
  simp only [Ensures, finalize, abort, yields_bind, yields_theRun, h.collecting,
    Bool.false_eq_true, if_false, yields_pure, hstore, RunStore.toReader]
  cases hsealed : w.sealed with
  | error fault => exact ensures_fail
  | ok reader =>
    simp only [yields_bind, yields_modifyRun, yields_pure]
    intro _
    have hfits (hspooled : w.mode = .spooled) : ∀ x ∈ l.samples, Ledger.Fits x :=
      Writer.fits_of_sealed hfollows hspooled (h.fits (hmode.symm.trans hspooled)) hsealed
    obtain ⟨reader', hsealed', hshows, -, hsummary⟩ := Writer.sealed_of_follows hfollows
      fun hspooled x hx => hfits hspooled x (List.mem_of_getLast? hx)
    cases hsealed.symm.trans hsealed'
    have hkept : l.kept w.mode = l.samples := by
      cases hm : w.mode with
      | buffered => rfl
      | spooled => exact Ledger.kept_of_fits (hfits hm) .spooled
    rw [hkept] at hshows hsummary
    rw [hmode] at hsummary
    exact
      { answer := rfl
        config := h.onward.config
        reader := ⟨reader, rfl, hshows, hsummary⟩
        status := by simp [h.status]
        executions := h.executions
        early := rfl
        work := rfl
        beats := (List.append_nil _).symm }

omit [Device κ] in
/-- A look at the ceilings that succeeds has found none that is reached. -/
theorem accepted_of_ok {samples : List Sample} {config : Configuration} {reader : Reader}
    (hconfig : s.run.config = config) (hstore : s.run.store = .sealed reader)
    (hsummary : ∀ metric, reader.summary? metric =
      Summary.ofSeriesIn (.ofPlanned config.executions) (series samples metric)) :
    Ensures checkOwnCeilings s fun t => t = s ∧
      ∀ e ∈ config.ceilings.entries, ∀ mean, ¬ config.Reaches samples e.1 e.2 mean := by
  have hjudges := Reader.judges_checkCeilings hsummary
  refine Yields.congr (y := ofResult (reader.checkCeilings config.ceilings)) ?_
    (hconfig ▸ checkOwnCeilings_eq hstore)
  cases hchecked : reader.checkCeilings config.ceilings with
  | error f => exact ensures_fail
  | ok _ =>
    rw [hchecked] at hjudges
    cases hjudges with
    | accepted hnone => exact fun _ => ⟨rfl, hnone⟩

end Run

/-! ## Whole runs -/

/-- What is left of a run that succeeds: it has made all calls of its schedule, and no hook has
failed; it has measured as many iterations as planned, or was stopped early after enough of them;
its store shows a sample for each; and no mean has reached its ceiling. -/
structure Session.Succeeded {κ : Type} (s : Session κ) (samples : List Sample) (t : Session κ) :
    Prop where
  calls : (s.work.play (s.schedule samples.length)).failure = none
  beats : t.world.beats = s.world.beats ++ s.schedule samples.length
  status : t.run.status = .complete
  executions : t.run.executions = samples.length
  enough : t.run.earlyStopped = false ∧ samples.length = s.run.config.executions ∨
    t.run.earlyStopped = true ∧ s.run.config.Admissible samples samples.length
  reader : ∃ reader, t.run.store = .sealed reader ∧ reader.Shows samples ∧
    ∀ metric, reader.summary? metric =
      Summary.ofSeriesIn (.ofPlanned s.run.config.executions) (series samples metric)
  ceilings : ∀ e ∈ s.run.config.ceilings.entries, ∀ mean,
    ¬ s.run.config.Reaches samples e.1 e.2 mean

namespace Run

open Session Step

variable {κ : Type} [Device κ] {s : Session κ}

/-- **What is left of a run that succeeds.** -/
theorem succeeded_of_ok (hfresh : s.Fresh) (token : Token) :
    Ensures (execute token) s fun t => ∃ samples, Succeeded s samples t := by
  have hwarmup : Ensures (warmup token) s.prepared _ := succeeds_warmup s.prepared hfresh.advances
  refine Ensures.bind (ensures_modifyRun (Q := fun t => t = s.prepared) rfl) ?_
  rintro t rfl
  refine hwarmup.bind_settle (fun t ht => ?_) ensures_finalize_false
  refine (succeeds_mainLoop ht.of_ok.2.2.2).bind fun u hu => ?_
  obtain ⟨l, stopped, hmeasures, hplayed⟩ := hu
  obtain ⟨hL, -, hbeats, hadvances⟩ := (ht.append_ok hplayed).of_ok
  refine (sealed_of_ok hadvances).bind fun v hsealed => ?_
  obtain ⟨reader, hstore, hshows, hsummary⟩ := hsealed.reader
  refine (accepted_of_ok hsealed.config hstore hsummary).mono ?_
  rintro _ ⟨rfl, hceilings⟩
  have hall : (s.work.play (s.schedule l.samples.length)).beats = s.schedule l.samples.length :=
    (Workload.play_beats_isPrefix (s.makes_schedule l.samples.length)).2 hL
  refine ⟨l.samples, ?_⟩
  exact
    { calls := hL
      beats := (hsealed.beats.trans (List.append_nil _)).trans
        (hbeats.trans (congrArg (s.world.beats ++ ·) hall))
      status := hsealed.status
      executions := hsealed.executions
      enough := by
        rw [hsealed.early, hadvances.early]
        exact hmeasures.enough
      reader := ⟨reader, hstore, hshows, hsummary⟩
      ceilings := hceilings }

end Run

end Gauge
