import Gauge.Proofs.Run.Schedule

/-!
# The brackets of a history

Whatever the caller of a run does with it, and in whatever order, its collectors are started and
stopped by turns: all of them in start order, and then all of them in the reverse order.

## Main definitions

* `Run.InStartOrder` — names in the order in which the collectors are started.
* `Alternates` — calls that start all collectors and stop them by turns.
* `Session.Leads` — a session that the caller of another one comes to.
* `Session.Orderly` — what one operation after another preserves.

## Main statements

* `Run.inStartOrder_startNames` — the start order is the stable order of the priorities.
* `Run.composes_keeps` — all that a run does is orderly.
* `Run.leads_alternates` — the calls of a whole history.
-/

namespace Gauge

/-! ## The start order -/

namespace Run

variable {κ : Type}

/-- The names of the collectors in the order in which they are started: each collector once, in
ascending priority, and those of one priority as they were declared. -/
def InStartOrder (r : Run κ) (names : List String) : Prop :=
  ∃ entries : List ((String × Int32) × Nat), entries.map (·.1.1) = names ∧
    entries.Perm r.labels.zipIdx ∧
    entries.Pairwise fun a b => a.1.2 < b.1.2 ∨ a.1.2 = b.1.2 ∧ a.2 < b.2

/-- The start order is the stable order of the priorities. -/
theorem inStartOrder_startNames (r : Run κ) : r.InStartOrder r.startNames := by
  let le (a b : String × Int32) : Bool := a.2 ≤ b.2
  have htrans : ∀ a b c, le a b → le b c → le a c := by
    intro a b c hab hbc
    simp only [le, decide_eq_true_eq] at *
    exact Int32.le_trans hab hbc
  have htotal : ∀ a b, le a b || le b a := by
    intro a b
    simpa [le] using Int32.le_total a.2 b.2
  have hperm := List.mergeSort_perm r.labels.zipIdx (List.zipIdxLE le)
  have hsorted : (r.labels.zipIdx.mergeSort (List.zipIdxLE le)).Pairwise fun a b =>
      List.zipIdxLE le a b :=
    List.pairwise_mergeSort (List.zipIdxLE_trans htrans) (List.zipIdxLE_total htotal) _
  have hdistinct : (r.labels.zipIdx.mergeSort (List.zipIdxLE le)).Pairwise fun a b =>
      a.2 ≠ b.2 :=
    List.pairwise_map.1 ((hperm.map Prod.snd).nodup_iff.2 (List.nodup_zipIdx_map_snd _))
  refine ⟨_, ?_, hperm, (hsorted.and hdistinct).imp fun {a b} hab => ?_⟩
  -- to sort by the position where two priorities are equal is what makes the order stable
  · have hstable : (r.labels.zipIdx.mergeSort (List.zipIdxLE le)).map (·.1) =
        r.labels.mergeSort le := List.mergeSort_zipIdx
    rw [startNames, ← hstable, List.map_map]
    rfl
  · obtain ⟨hle, hne⟩ := hab
    rw [List.zipIdxLE] at hle
    by_cases hba : b.1.2 ≤ a.1.2
    · by_cases hab : a.1.2 ≤ b.1.2
      · have hposition : a.2 ≤ b.2 := by simpa [le, hab, hba] using hle
        exact .inr ⟨Int32.le_antisymm hab hba, by omega⟩
      · simp [le, hab] at hle
    · exact .inl (Int32.not_le.1 hba)

end Run

/-- The collectors of a new run have different names. -/
theorem Session.Fresh.nodup {κ : Type} {s : Session κ} (h : s.Fresh) : s.run.names.Nodup := by
  obtain ⟨config, collectors, run, hcreate, hrun⟩ := h
  obtain ⟨-, hnames, rfl⟩ := Run.create_eq_ok_iff.1 hcreate
  rw [hrun]
  exact (Run.checkNames_eq_ok_iff.1 hnames).1

/-! ## Calls by turns -/

/-- Calls by turns, in the order of a list of names: all collectors are started, with one kind of
call, and then all of them are stopped, in the reverse order.  At the end of the calls a bracket can
be open, and its mode tells which calls have opened it. -/
inductive Alternates (names : List String) : Option CollectionMode → List Beat → Prop
  | nil : Alternates names none []
  | start {beats : List Beat} (mode : CollectionMode) (h : Alternates names none beats) :
      Alternates names (some mode) (beats ++ names.map (.collector mode.call))
  | stop {beats : List Beat} {mode : CollectionMode} (h : Alternates names (some mode) beats) :
      Alternates names none (beats ++ names.reverse.map (.collector .stop))

/-- Whether a call is one of a collector. -/
def Beat.isOfCollector : Beat → Bool
  | hook _ => false
  | collector _ _ => true

def World.collectorBeats {κ : Type} (w : World (Event κ)) : List Beat :=
  w.beats.filter Beat.isOfCollector

theorem Beat.filter_map_collector (call : Call) (names : List String) :
    (names.map (Beat.collector call)).filter isOfCollector = names.map (.collector call) :=
  List.filter_eq_self.2 fun beat hbeat => by
    obtain ⟨name, -, rfl⟩ := List.mem_map.1 hbeat
    rfl

theorem World.collectorBeats_of_heard {κ : Type} [Device κ] {s t : Session κ} {call : Call}
    {names : List String} {r : Except Halt Unit}
    (h : s.Heard (names.map (.collector call)) r t) :
    t.world.collectorBeats = s.world.collectorBeats ++ names.map (.collector call) := by
  rw [collectorBeats, h.beats, List.filter_append, Beat.filter_map_collector]
  rfl

theorem World.Silent.collectorBeats {κ : Type} {w v : World (Event κ)} (h : w.Silent v) :
    v.collectorBeats = w.collectorBeats := by
  rw [World.collectorBeats, h.beats]
  rfl

/-! ## Orderly sessions -/

namespace Session

variable {κ : Type} [Device κ]

/-- The collectors have been called by turns since a session was `s`, and the run knows whether a
bracket is open. -/
structure Bracketed (s : Session κ) (names : List String) (current : Option CollectionMode)
    (t : Session κ) : Prop where
  collecting : t.run.collecting = current.isSome
  calls : ∃ beats, t.world.collectorBeats = s.world.collectorBeats ++ beats ∧
    Alternates names current beats

/-- A session that began as `s₀` is orderly, with a bracket that is open or none: no collector
breaks off, the order is the start order if it is settled, and the collectors have been called by
turns.  Only a session whose order is settled and whose store takes values can have a bracket that
is open. -/
structure Orderly (s₀ : Session κ) (current : Option CollectionMode) (s : Session κ) : Prop where
  steady : s.Steady
  labels : s.run.labels = s₀.run.labels
  order : ∀ order, s.run.order = some order →
    order.filterMap (fun i => s₀.run.labels[i]?.map (·.1)) = s₀.run.startNames
  collecting : s.run.collecting = current.isSome
  calls : ∃ beats, s.world.collectorBeats = s₀.world.collectorBeats ++ beats ∧
    Alternates s₀.run.startNames current beats
  ordered : current.isSome → s.run.order.isSome
  unsealed : current.isSome → s.run.isFinalized = false

variable {s₀ s t : Session κ} {current : Option CollectionMode}

theorem Orderly.bracketed (h : s₀.Orderly current s) :
    s₀.Bracketed s₀.run.startNames current s :=
  ⟨h.collecting, h.calls⟩

/-- A session stays orderly as long as its run stays and no collector is called. -/
theorem Orderly.of_run_eq (h : s₀.Orderly current s) (hrun : t.run = s.run)
    (hhorizon : t.world.horizon = none)
    (hunheard : t.world.collectorBeats = s.world.collectorBeats) : s₀.Orderly current t where
  steady := ⟨hhorizon, hrun ▸ h.steady.devices⟩
  labels := hrun ▸ h.labels
  order := hrun ▸ h.order
  collecting := hrun ▸ h.collecting
  calls := hunheard ▸ h.calls
  ordered := hrun ▸ h.ordered
  unsealed := hrun ▸ h.unsealed

theorem Orderly.of_silent {w : World (Event κ)} (h : s₀.Orderly current s)
    (hw : s.world.Silent w) : s₀.Orderly current { s with world := w } :=
  h.of_run_eq rfl (hw.horizon.trans h.steady.horizon) hw.collectorBeats

/-- A session is orderly after a call of all collectors that goes on with its brackets. -/
theorem Orderly.of_heard {next : Option CollectionMode} {call : Call} {names : List String}
    {r : Except Halt Unit} (h : s₀.Orderly current s)
    (ht : s.Heard (names.map (.collector call)) r t)
    (halternates : ∀ beats, Alternates s₀.run.startNames current beats →
      Alternates s₀.run.startNames next (beats ++ names.map (.collector call)))
    (hordered : next.isSome → s.run.order.isSome)
    (hunsealed : next.isSome → s.run.isFinalized = false) :
    s₀.Orderly next { t with run := { t.run with collecting := next.isSome } } where
  steady := ⟨ht.steady.horizon, ht.steady.devices⟩
  labels := ht.onward.labels.trans h.labels
  order := by rw [ht.run]; exact h.order
  calls := by
    obtain ⟨beats, hbeats, hcurrent⟩ := h.calls
    refine ⟨_, ?_, halternates beats hcurrent⟩
    rw [World.collectorBeats_of_heard ht, hbeats, List.append_assoc]
  collecting := rfl
  ordered := by rw [ht.run]; exact hordered
  unsealed := by rw [ht.run]; exact hunsealed

/-- A session stays orderly where the run changes in other ways, as long as its store takes values
while a bracket is open. -/
theorem Orderly.with_run {run : Run κ} (h : s₀.Orderly current s)
    (hcollectors : run.collectors = s.run.collectors) (horder : run.order = s.run.order)
    (hcollecting : run.collecting = s.run.collecting)
    (hunsealed : current.isSome → run.isFinalized = false) :
    s₀.Orderly current { s with run := run } where
  steady := ⟨h.steady.horizon, hcollectors ▸ h.steady.devices⟩
  labels := by rw [Run.labels, hcollectors]; exact h.labels
  order := horder ▸ h.order
  collecting := hcollecting.trans h.collecting
  calls := h.calls
  ordered := horder ▸ h.ordered
  unsealed := hunsealed

theorem Orderly.of_work (h : s₀.Orderly current s) (work : Workload) :
    s₀.Orderly current { s with work := work } :=
  h.of_run_eq rfl h.steady.horizon rfl

end Session

/-! ## Orderly steps -/

namespace Step

open Session

variable {κ α β : Type} [Device κ] {s₀ : Session κ}

/-- An answer, or a failure: a step that does not break off. -/
def Proper : Except Halt α → Prop
  | .ok _ => True
  | .error e => ∃ f, e = .failure f

/-- A step that leaves an orderly session orderly and does not break off. -/
def Keeps (s₀ : Session κ) (x : Step κ α) : Prop :=
  ∀ current s, s₀.Orderly current s →
    Yields x s fun r t => Proper r ∧ ∃ current', s₀.Orderly current' t

theorem Keeps.bind {x : Step κ α} {f : α → Step κ β} (hx : Keeps s₀ x)
    (hf : ∀ a, Keeps s₀ (f a)) : Keeps s₀ (x >>= f) := by
  intro current s hs
  rw [yields_bind]
  refine (hx current s hs).mono fun r t ht => ?_
  obtain ⟨hr, current', ht⟩ := ht
  cases r with
  | ok a => exact hf a current' t ht
  | error e => exact ⟨hr, current', ht⟩

theorem proper_settled {r : Except Halt α} (h : Proper r) : Proper (settled r) := by
  cases r with
  | ok a => trivial
  | error e =>
    obtain ⟨f, rfl⟩ := h
    trivial

theorem keeps_settle {x : Step κ α} (hx : Keeps s₀ x) : Keeps s₀ (settle x : Step κ _) :=
  fun current s hs => (yields_settle x).2 ((hx current s hs).mono fun _ _ ht =>
    ⟨proper_settled ht.1, ht.2⟩)

theorem keeps_checkpoint (token : Token) :
    Keeps s₀ (inWorld (World.checkpoint token) : Step κ Unit) := by
  intro current s hs
  rw [yields_inWorld]
  refine (World.answers_checkpoint token s.world).mono fun r w hw => ?_
  refine ⟨?_, current, hs.of_silent hw.1⟩
  rcases hw.2 hs.steady.horizon with rfl | ⟨rfl, -⟩
  · trivial
  · exact ⟨_, rfl⟩

/-- The call of a hook is not one of a collector, and what breaks off in a hook is a failure. -/
theorem keeps_callHook (token : Token) (stage : Stage) :
    Keeps s₀ (callHook token stage : Step κ Unit) := by
  intro current s hs
  refine (yields_callHook token stage s).mono ?_
  rintro r t (⟨-, rfl, rfl⟩ | ⟨action, h⟩)
  · exact ⟨trivial, current, hs⟩
  · have hunheard : t.world.collectorBeats = s.world.collectorBeats := by
      rw [World.collectorBeats, h.beats, List.filter_append]
      exact List.append_nil _
    refine ⟨?_, current, hs.of_run_eq h.run (h.onward.world.horizon.trans hs.steady.horizon)
      hunheard⟩
    rcases h.answer hs.steady.horizon with rfl | ⟨rfl, -⟩
    · cases action.failure? with
      | none => trivial
      | some f => exact ⟨f, rfl⟩
    · exact ⟨_, rfl⟩

end Step

/-! ## The bracket -/

namespace Run

open Session Step

variable {κ : Type} [Device κ] {s₀ s : Session κ} {current : Option CollectionMode}

theorem keeps_prepare : Keeps s₀ (prepare : Step κ Unit) := by
  intro current s hs
  refine ⟨trivial, current, { hs with
    steady := ⟨hs.steady.horizon, hs.steady.devices⟩
    order := ?_
    ordered := fun _ => rfl }⟩
  intro order horder
  cases horder
  have hnames := s.run.filterMap_startOrder
  rwa [startNames, hs.labels] at hnames

/-- A start that answers opens a bracket; all others change nothing. -/
theorem keeps_start (mode : CollectionMode) : Keeps s₀ (start mode : Step κ Unit) := by
  intro current s hs
  simp only [start, yields_bind, yields_theRun]
  cases horder : s.run.order with
  | none => exact ⟨⟨_, rfl⟩, current, hs⟩
  | some order =>
    cases hstore : s.run.store with
    | sealed reader => exact ⟨⟨_, rfl⟩, current, hs⟩
    | lost => exact ⟨⟨_, rfl⟩, current, hs⟩
    | writing w =>
      cases current with
      -- a start fails before it calls a collector where a bracket is open
      | some current =>
        simp only [hs.collecting, Option.isSome_some, if_true, yields_bind, yields_fail]
        exact ⟨⟨_, rfl⟩, _, hs⟩
      | none =>
        simp only [hs.collecting, Option.isSome_none, Bool.false_eq_true, if_false, yields_bind]
        simp only [yields_get, yields_modifyRun]
        have hnow : s₀.Orderly none { s with run := { s.run with
            store := .writing (w.noteStart s.millis) } } :=
          hs.with_run rfl rfl rfl fun _ => rfl
        refine (heard_callCollectors hnow.steady mode.call order).mono fun r t ht => ?_
        rw [ht.answer]
        rw [hnow.labels, hs.order order horder] at ht
        refine ⟨trivial, some mode, hnow.of_heard ht (fun _ h => .start mode h) ?_ fun _ => rfl⟩
        exact fun _ => horder ▸ rfl

/-- All collectors of an open bracket are stopped. -/
theorem orderly_stopCollectors {mode : CollectionMode} (hs : s₀.Orderly (some mode) s) :
    Yields stopCollectors s fun r t => r = .ok () ∧ s₀.Orderly none t := by
  obtain ⟨order, horder⟩ := Option.isSome_iff_exists.1 (hs.ordered rfl)
  simp only [stopCollectors, yields_bind, yields_theRun, horder, Option.getD_some]
  refine (heard_callCollectors hs.steady .stop order.reverse).mono fun r t ht => ?_
  rw [ht.answer]
  rw [hs.labels, List.filterMap_reverse, hs.order order horder] at ht
  exact ⟨rfl, hs.of_heard ht (fun _ h => .stop h) (fun h => by cases h) fun h => by cases h⟩

/-- An abort closes the bracket that is open, and it cannot fail. -/
theorem orderly_abort (hs : s₀.Orderly current s) :
    Yields abort s fun r t => r = .ok () ∧ s₀.Orderly none t := by
  simp only [abort, yields_bind, yields_theRun]
  cases current with
  | none =>
    simp only [hs.collecting, Option.isSome_none, Bool.false_eq_true, if_false]
    exact ⟨rfl, hs⟩
  | some mode =>
    simp only [hs.collecting, Option.isSome_some, if_true]
    exact orderly_stopCollectors hs

theorem keeps_abort : Keeps s₀ (abort : Step κ Unit) :=
  fun _ _ hs => (orderly_abort hs).mono fun r t ht => by
    rw [ht.1]
    exact ⟨trivial, none, ht.2⟩

/-- The collectors have been stopped before a sample is written, so it does not matter whether it
can be. -/
theorem keeps_stop : Keeps s₀ (stop : Step κ Unit) := by
  intro current s hs
  simp only [stop, yields_bind, yields_theRun]
  cases hstore : s.run.store with
  | sealed reader => exact ⟨⟨_, rfl⟩, current, hs⟩
  | lost => exact ⟨⟨_, rfl⟩, current, hs⟩
  | writing w =>
    cases current with
    | none =>
      simp only [hs.collecting, Option.isSome_none, Bool.not_false, if_true, yields_bind,
        yields_fail]
      exact ⟨⟨_, rfl⟩, _, hs⟩
    | some mode =>
      simp only [hs.collecting, Option.isSome_some, Bool.not_true, Bool.false_eq_true, if_false,
        yields_bind]
      refine (orderly_stopCollectors hs).mono fun r t ht => ?_
      obtain ⟨rfl, ht⟩ := ht
      refine (yields_writeSample w t).mono ?_
      rintro r u (⟨rfl, -, rfl⟩ | ⟨fault, rfl, -, rfl⟩)
      · exact ⟨trivial, none, ht.with_run rfl rfl rfl fun _ => rfl⟩
      · exact ⟨⟨_, rfl⟩, none, ht.with_run rfl rfl rfl fun _ => rfl⟩

theorem keeps_attach (name : String) (value : Int64) :
    Keeps s₀ (attach name value : Step κ Unit) := by
  intro current s hs
  refine (yields_attach name value s).mono ?_
  rintro r t (⟨w, -, -, rfl, -, rfl⟩ | ⟨f, rfl, rfl⟩)
  · exact ⟨trivial, current, hs.with_run rfl rfl rfl fun _ => rfl⟩
  · exact ⟨⟨f, rfl⟩, current, hs⟩

/-- After the store is sealed no bracket is open, whether it could be sealed or not. -/
theorem orderly_finalize (hs : s₀.Orderly current s) (failure : Option Failure) :
    Yields (finalize failure) s fun r t => Proper r ∧ s₀.Orderly none t := by
  simp only [finalize, yields_bind]
  refine (orderly_abort hs).mono fun r t ht => ?_
  obtain ⟨rfl, ht⟩ := ht
  have hclosed (status : RunStatus) (store : RunStore) : s₀.Orderly none { t with
      run := { t.run with store := store, status := status } } :=
    ht.with_run rfl rfl rfl fun h => by cases h
  simp only [yields_theRun]
  cases t.run.store.toReader with
  | error fault => exact ⟨⟨_, rfl⟩, hclosed _ _⟩
  | ok reader =>
    cases failure with
    | none => exact ⟨trivial, hclosed _ _⟩
    | some f => exact ⟨⟨f, rfl⟩, hclosed _ _⟩

theorem keeps_finalize (failure : Option Failure) : Keeps s₀ (finalize failure : Step κ Unit) :=
  fun _ _ hs => (orderly_finalize hs failure).mono fun _ _ ht => ⟨ht.1, none, ht.2⟩

/-- A sealed store is disposed where no bracket is open. -/
theorem keeps_dispose : Keeps s₀ (dispose : Step κ Unit) := by
  intro current s hs
  simp only [dispose, yields_bind, yields_theRun]
  cases hstore : s.run.store with
  | writing w => exact ⟨⟨_, rfl⟩, current, hs⟩
  | lost => exact ⟨trivial, current, hs⟩
  | sealed reader =>
    have hdisposed (reader : Reader) :
        s₀.Orderly current { s with run := { s.run with store := .sealed reader } } :=
      hs.with_run rfl rfl rfl fun hopen => by
        have hunsealed := hs.unsealed hopen
        rw [isFinalized, hstore] at hunsealed
        cases hunsealed
    dsimp only
    generalize reader.dispose = disposed
    obtain ⟨result, reader'⟩ := disposed
    cases result with
    | ok _ => exact ⟨trivial, current, hdisposed reader'⟩
    | error fault => exact ⟨⟨_, rfl⟩, current, hdisposed reader'⟩

/-! ## Whole histories -/

/-- All that a run does is orderly. -/
theorem composes_keeps (s₀ : Session κ) (token : Token) :
    Composes (κ := κ) token fun _ x => Keeps s₀ x where
  pure := fun _ current _ hs => ⟨trivial, current, hs⟩
  fail := fun f current _ hs => ⟨⟨f, rfl⟩, current, hs⟩
  theRun := fun current _ hs => ⟨trivial, current, hs⟩
  bind := Keeps.bind
  settle := keeps_settle
  checkpoint := keeps_checkpoint token
  callHook := keeps_callHook token
  prepare := keeps_prepare
  start := keeps_start
  stop := keeps_stop
  abort := keeps_abort
  noteEarly := fun current _ hs => ⟨trivial, current, hs.with_run rfl rfl rfl hs.unsealed⟩
  finalize := keeps_finalize

/-- Every operation is orderly. -/
theorem keeps_perform (token : Token) (operation : Operation) :
    Keeps s₀ (operation.perform token : Step κ Unit) := by
  cases operation with
  | prepare => exact keeps_prepare
  | start => exact keeps_start .fresh
  | restart => exact keeps_start .accumulate
  | stop => exact keeps_stop
  | abort => exact keeps_abort
  | attach name value => exact keeps_attach name value
  | warmup => exact (composes_keeps s₀ token).warmup
  | mainLoop => exact (composes_keeps s₀ token).mainLoop
  | execute => exact (composes_keeps s₀ token).execute
  | finalize failure => exact keeps_finalize failure
  | dispose => exact keeps_dispose

/-- Where the measured iterations fail, no bracket is left open. -/
theorem orderly_mainLoop (hs : s₀.Orderly current s) (token : Token) :
    Yields (mainLoop token) s fun r t => (∃ e, r = .error e) → s₀.Orderly none t := by
  simp only [mainLoop, yields_bind, yields_settle]
  refine ((composes_keeps s₀ token).measure current s hs).mono fun r t ht => ?_
  obtain ⟨hr, current', ht⟩ := ht
  cases r with
  | ok _ =>
    rintro ⟨_, he⟩
    cases he
  | error e =>
    obtain ⟨f, rfl⟩ := hr
    exact (orderly_finalize ht (some f)).mono fun _ _ hu _ => hu.2

end Run

namespace Session

variable {κ : Type} [Device κ] {s t : Session κ}

/-- Where the caller of a run comes to: it does one operation after another, whatever they answer,
each with a workload and a token, and between them the world goes on. -/
inductive Leads (s : Session κ) : Session κ → Prop
  | refl : Leads s s
  | perform {t : Session κ} (work : Workload) (token : Token) (operation : Run.Operation)
      (h : Leads s t) :
      Leads s (Step.after (operation.perform token) { t with work := work })
  | pass {t : Session κ} {w : World (Event κ)} (h : Leads s t) (hw : t.world.Silent w) :
      Leads s { t with world := w }

/-- The caller goes on with any operations. -/
theorem Leads.foldl (h : s.Leads t) (token : Token) (operations : List Run.Operation) :
    s.Leads (operations.foldl (fun t operation => Step.after (operation.perform token) t) t) := by
  induction operations generalizing t with
  | nil => exact h
  | cons operation operations ih => exact ih (.perform t.work token operation h)

/-- A new session is orderly. -/
theorem Fresh.orderly (h : s.Fresh) (hsteady : s.Steady) : s.Orderly none s where
  steady := hsteady
  labels := rfl
  order := fun order horder => by
    have hnone := congrArg Run.order h.run_eq
    rw [horder] at hnone
    cases hnone
  calls := ⟨[], (List.append_nil _).symm, .nil⟩
  collecting := congrArg Run.collecting h.run_eq
  ordered := fun hopen => by cases hopen
  unsealed := fun hopen => by cases hopen

/-- An orderly session stays so, whatever its caller does. -/
theorem Leads.orderly (h : s.Leads t) (hs : s.Orderly none s) :
    ∃ current, s.Orderly current t := by
  induction h with
  | refl => exact ⟨none, hs⟩
  -- the session after an operation is the same one whether the operation answers or fails
  | perform work token operation _ ih =>
    obtain ⟨current, ht⟩ := ih
    exact (Step.yields_after_iff.1 ((Run.keeps_perform token operation current _
      (ht.of_work work)).mono fun _ _ hu => hu.2))
  | pass _ hw ih =>
    obtain ⟨current, ht⟩ := ih
    exact ⟨current, ht.of_silent hw⟩

end Session

namespace Run

open Session Step

variable {κ : Type} [Device κ] {s : Session κ}

omit [Device κ] in
/-- The start order tells the collectors of a new run apart. -/
theorem nodup_of_inStartOrder {r : Run κ} {names : List String} (h : r.InStartOrder names)
    (hnames : r.names.Nodup) : names.Nodup := by
  obtain ⟨entries, rfl, hperm, -⟩ := h
  have hlabels : r.labels.zipIdx.map (·.1.1) = r.names := by
    have hfirst : r.labels.zipIdx.map (·.1.1) = (r.labels.zipIdx.map (·.1)).map (·.1) := by
      simp only [List.map_map, Function.comp_def]
    rw [hfirst, List.zipIdx_map_fst, labels, List.map_map]
    rfl
  rw [← hlabels] at hnames
  exact (hperm.map (·.1.1)).nodup_iff.2 hnames

/-- **The collectors of a run are started and stopped by turns**, whatever is done with it and in
whatever order, also where it fails: all of them are started in ascending priority, and stopped in
the reverse order.  A bracket can be open only while the store takes values, and none is open after
the store was sealed or the measured iterations have failed. -/
theorem leads_alternates (hfresh : s.Fresh) (hsteady : s.Steady) :
    ∃ names, s.run.InStartOrder names ∧ names.Nodup ∧ ∀ t, s.Leads t →
      (∃ current, s.Bracketed names current t ∧ (current.isSome → t.run.isFinalized = false)) ∧
      (∀ failure, s.Bracketed names none (after (finalize failure) t)) ∧
      ∀ work token, (∃ e, answer (mainLoop token) { t with work := work } = .error e) →
        s.Bracketed names none (after (mainLoop token) { t with work := work }) := by
  have hordered := s.run.inStartOrder_startNames
  refine ⟨s.run.startNames, hordered, nodup_of_inStartOrder hordered hfresh.nodup, fun t ht => ?_⟩
  obtain ⟨current, horderly⟩ := ht.orderly (hfresh.orderly hsteady)
  refine ⟨⟨current, horderly.bracketed, horderly.unsealed⟩, fun failure => ?_,
    fun work token hfails => ?_⟩
  · exact (yields_after_iff.1 ((orderly_finalize horderly failure).mono fun _ _ hu =>
      hu.2)).bracketed
  · exact (yields_iff.1 (orderly_mainLoop (horderly.of_work work) token) hfails).bracketed

def threeCollectors : Session Instrument where
  world := { tokens := { cells := #[{}] } }
  work := { body := { script := fun _ => .succeed } }
  run :=
    { config := { warmup := 0, executions := 1, repetitions := 1 }
      collectors := [⟨"cpu", 20, .summed .cpu {}⟩, ⟨"time", 10, .summed .elapsed {}⟩,
        ⟨"real", 10, .summed .elapsed {}⟩]
      store := .writing (.ofPlanned 1) }

theorem fresh_threeCollectors : threeCollectors.Fresh :=
  ⟨threeCollectors.run.config, threeCollectors.run.collectors, threeCollectors.run, rfl, rfl⟩

theorem steady_threeCollectors : threeCollectors.Steady := by
  have hunbroken : ∀ c ∈ threeCollectors.run.collectors, c.device.Unbroken := by decide
  exact ⟨rfl, fun c hc => (hunbroken c hc).steady⟩

theorem order_threeCollectors : startOrder threeCollectors.run.collectors = [1, 2, 0] := by cbv

/-- The preparation of a run fixes the start order. -/
theorem after_prepare (s : Session κ) (token : Token) :
    after (Operation.prepare.perform token) s =
      { s with run := { s.run with order := some (startOrder s.run.collectors) } } := rfl

/-- A second start fails and is not heard, and the store is sealed while a bracket is open. -/
theorem leads_alternates_threeCollectors :
    threeCollectors.Fresh ∧ threeCollectors.Steady ∧
      ∃ t, threeCollectors.Leads t ∧ t.run.collecting = true ∧
        ∃ names, threeCollectors.run.InStartOrder names ∧ names.Nodup ∧
          threeCollectors.Bracketed names none (after (finalize none) t) ∧
          (after (finalize none) t).world.collectorBeats =
            [.collector .start "time", .collector .start "real", .collector .start "cpu",
              .collector .stop "cpu", .collector .stop "real", .collector .stop "time",
              .collector .restart "time", .collector .restart "real", .collector .restart "cpu",
              .collector .stop "cpu", .collector .stop "real", .collector .stop "time"] := by
  have hleads := (Leads.perform threeCollectors.work ⟨0, []⟩ .prepare .refl :
    threeCollectors.Leads _).foldl ⟨0, []⟩ [.start, .start, .stop, .restart]
  obtain ⟨names, hordered, hnodup, halternates⟩ := leads_alternates fresh_threeCollectors
    steady_threeCollectors
  have hclosed := (halternates _ hleads).2.1 none
  refine ⟨fresh_threeCollectors, steady_threeCollectors, _, hleads, ?_, names, hordered, hnodup,
    hclosed, ?_⟩
  · rw [after_prepare, order_threeCollectors]
    decide +kernel
  · rw [after_prepare, order_threeCollectors]
    decide +kernel

end Run

end Gauge
