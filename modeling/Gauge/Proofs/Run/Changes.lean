import Gauge.Proofs.Run.History

/-!
# What becomes of a run

A run changes in a few ways only, whatever is done with it.  Each way is one constructor here, with
what the run was like before, and every step of a run is a sequence of such changes.  A property
that each change preserves is one of every history.

## Main definitions

* `Run.Change` — one change of a run that goes on.
* `Run.Turn` — one change of a run, the end of writing included.
* `Run.Alters` — one change of a run, the end of its samples included.
* `Step.Moves` — a step that makes changes of a kind.

## Main statements

* `Run.moves_measure` — the measured iterations neither seal the store nor touch the status.
* `Run.turns_perform` — every operation that keeps the samples is a sequence of turns.
* `Session.Leads.alters` — every history of a run is a sequence of such changes.
-/

namespace Gauge

open Relation (ReflTransGen)

namespace Run

variable {κ : Type} [Device κ] {r r' : Run κ}

/-- One change of a run that goes on.  Only a run whose store takes values can open an iteration,
write, or stop early. -/
inductive Change (r : Run κ) : Run κ → Prop
  | ordered (order : Option (List Nat)) : Change r { r with order := order }
  | called {collectors : List (Collector κ)}
      (h : labels { r with collectors := collectors } = r.labels) :
      Change r { r with collectors := collectors }
  | opened {w : Writer} (h : r.store = .writing w) : Change r { r with collecting := true }
  | closed : Change r { r with collecting := false }
  | noted {w : Writer} (h : r.store = .writing w) (millis : Int64) :
      Change r { r with store := .writing (w.noteStart millis) }
  | written {w : Writer} (h : r.store = .writing w) (hok : (w.write (values r)).1 = .ok ()) :
      Change r { r with
        store := .writing (w.write (values r)).2
        executions := (w.write (values r)).2.count }
  | refused {w : Writer} {fault : StoreFault} (h : r.store = .writing w)
      (hfault : (w.write (values r)).1 = .error fault) :
      Change r { r with store := .writing (w.write (values r)).2 }
  | attached {w : Writer} {name : String} (h : r.store = .writing w) (hname : name ∉ r.names)
      (value : Int64) : Change r { r with store := .writing (w.attach name value).2 }
  | early {w : Writer} (h : r.store = .writing w) : Change r { r with earlyStopped := true }

/-- The status of a run whose store was sealed, with or without a failure. -/
def statusAfter (failure : Option Failure) (status : RunStatus) : RunStatus :=
  match failure, status with
  | some _, _ => .failed
  | none, .open => .complete
  | none, status => status

/-- One change of a run that does not give its samples up.  The store is sealed, or lost, only where
no iteration is open. -/
inductive Turn (r : Run κ) : Run κ → Prop
  | change {r' : Run κ} (h : r.Change r') : Turn r r'
  | sealed {reader : Reader} (h : r.store.toReader = .ok reader) (hclosed : r.collecting = false)
      (failure : Option Failure) :
      Turn r { r with store := .sealed reader, status := statusAfter failure r.status }
  | lost {fault : StoreFault} (h : r.store.toReader = .error fault)
      (hclosed : r.collecting = false) : Turn r { r with store := .lost, status := .failed }

/-- One change of a run. -/
inductive Alters (r : Run κ) : Run κ → Prop
  | turn {r' : Run κ} (h : r.Turn r') : Alters r r'
  | disposed {reader : Reader} (h : r.store = .sealed reader) :
      Alters r { r with store := .sealed reader.dispose.2 }

/-- Changes leave a store that takes values one that does. -/
theorem Change.writing (h : r.Change r') (hr : r.isFinalized = false) : r'.isFinalized = false := by
  cases h with
  | ordered | called | opened | closed | early => exact hr
  | noted | written | refused | attached => rfl

theorem Change.status (h : r.Change r') : r'.status = r.status := by
  cases h <;> rfl

theorem changes_writing (h : ReflTransGen Change r r') (hr : r.isFinalized = false) :
    r'.isFinalized = false := by
  induction h with
  | refl => exact hr
  | tail _ hchange ih => exact hchange.writing ih

theorem changes_status (h : ReflTransGen Change r r') : r'.status = r.status := by
  induction h with
  | refl => rfl
  | tail _ hchange ih => exact hchange.status.trans ih

theorem isFinalized_eq_false_iff {κ : Type} {r : Run κ} :
    r.isFinalized = false ↔ ∃ w, r.store = .writing w := by
  rw [isFinalized]
  cases r.store <;> simp

end Run

/-! ## Steps that make changes -/

namespace Step

variable {κ α β : Type} {R R' : Run κ → Run κ → Prop} {s : Session κ}

/-- A step from a session makes changes of a kind, whether it answers or not. -/
def Moves (R : Run κ → Run κ → Prop) (x : Step κ α) (s : Session κ) : Prop :=
  Yields x s fun _ t => ReflTransGen R s.run t.run

theorem Moves.mono {x : Step κ α} (h : Moves R x s) (hR : ∀ r r', R r r' → R' r r') :
    Moves R' x s :=
  Yields.mono h fun _ _ ht => Relation.ReflTransGen.mono hR _ _ ht

theorem Moves.bind {x : Step κ α} {f : α → Step κ β} (hx : Moves R x s)
    (hf : ∀ a t, x s = .ok a t → Moves R (f a) t) : Moves R (x >>= f) s := by
  rw [Moves, yields_bind]
  cases h : x s with
  | ok a t =>
    have ht := hx.of_ok h
    rw [Yields, h]
    exact Yields.mono (hf a t h) fun _ _ hu => ht.trans hu
  | error e t =>
    have ht := hx.of_error h
    rw [Yields, h]
    exact ht

theorem moves_settle {x : Step κ α} (hx : Moves R x s) : Moves R (settle x : Step κ _) s :=
  (yields_settle x).2 hx

theorem moves_fail (f : Failure) : Moves R (fail f : Step κ α) s := .refl

theorem moves_ofResult (r : Except Failure α) : Moves R (ofResult r : Step κ α) s := by
  cases r <;> exact .refl

theorem moves_modifyRun {f : Run κ → Run κ} (h : R s.run (f s.run)) :
    Moves R (modifyRun f) s :=
  .single h

/-- A step that looks at its run first. -/
theorem moves_theRun {f : Run κ → Step κ α} (h : Moves R (f s.run) s) :
    Moves R (theRun >>= f) s := by
  rw [Moves, yields_bind, yields_theRun]
  exact h

/-- A step in the world leaves the run. -/
theorem moves_inWorld (x : Act (Event κ) α) : Moves R (inWorld x) s := by
  rw [Moves, yields_inWorld, Yields]
  cases x s.world <;> exact .refl

/-- The call of a hook leaves the run. -/
theorem moves_callHook (token : Token) (stage : Stage) :
    Moves R (callHook token stage : Step κ Unit) s := by
  refine (yields_callHook token stage s).mono ?_
  rintro r t (⟨-, rfl, rfl⟩ | ⟨action, h⟩)
  · exact .refl
  · rw [h.run]

end Step

/-! ## The parts of a run -/

namespace Run

open Step

variable {κ : Type} [Device κ] {s : Session κ}

theorem moves_prepare : Moves Change (prepare : Step κ Unit) s :=
  .single (.ordered _)

/-- Calls of collectors leave the labels. -/
theorem yields_callCollectors (call : Call) (order : List Nat) (s : Session κ) :
    Yields (callCollectors call order) s fun _ t => ∃ collectors : List (Collector κ),
      labels { s.run with collectors := collectors } = s.run.labels ∧
        t.run = { s.run with collectors := collectors } := by
  have hframe := yields_iff.1 (frame_callCollectors call order s)
  have honward := yields_iff.1 (onwards_callCollectors call order s)
  refine yields_iff.2 ⟨_, ?_, hframe⟩
  rw [← hframe]
  exact honward.labels

/-- Whatever becomes of a start, its changes are those of an iteration that opens; it answers only
where the store takes values. -/
theorem yields_start (mode : CollectionMode) (s : Session κ) :
    Yields (start mode) s fun r t => ReflTransGen Change s.run t.run ∧
      (r = .ok () → s.run.isFinalized = false) ∧
        (s.run.isFinalized → ∃ f, r = .error (.failure f)) := by
  simp only [start, yields_bind, yields_theRun]
  cases horder : s.run.order with
  | none => exact ⟨.refl, fun h => (by cases h), fun _ => ⟨_, rfl⟩⟩
  | some order =>
    cases hstore : s.run.store with
    | sealed reader => exact ⟨.refl, fun h => (by cases h), fun _ => ⟨_, rfl⟩⟩
    | lost => exact ⟨.refl, fun h => (by cases h), fun _ => ⟨_, rfl⟩⟩
    | writing w =>
      have hwriting : s.run.isFinalized = false := isFinalized_eq_false_iff.2 ⟨w, hstore⟩
      have hfinal {P : Prop} (h : s.run.isFinalized = true) : P := by rw [hwriting] at h; cases h
      by_cases hcollecting : s.run.collecting
      · simp only [hcollecting, if_true, yields_bind, yields_fail]
        exact ⟨.refl, fun _ => hwriting, hfinal⟩
      · simp only [if_neg hcollecting, yields_bind]
        simp only [yields_get, yields_modifyRun]
        refine (yields_callCollectors mode.call order _).mono fun r t ht => ?_
        obtain ⟨collectors, hlabels, hrun⟩ := ht
        have hcalled : ReflTransGen Change s.run t.run := by
          rw [hrun]
          exact .tail (.single (.noted hstore s.millis)) (.called hlabels)
        cases r with
        | error e => exact ⟨hcalled, fun _ => hwriting, hfinal⟩
        | ok _ =>
          have hstore' : t.run.store = .writing (w.noteStart s.millis) := by rw [hrun]; rfl
          exact ⟨hcalled.tail (.opened hstore'), fun _ => hwriting, hfinal⟩

/-- To stop the collectors is to call them and to close the iteration. -/
theorem yields_stopCollectors (s : Session κ) :
    Yields stopCollectors s fun r t => ∃ (collectors : List (Collector κ)) (collecting : Bool),
      labels { s.run with collectors := collectors } = s.run.labels ∧
        t.run = { s.run with collectors := collectors, collecting := collecting } ∧
        (collecting = s.run.collecting ∨ collecting = false) ∧
        (r = .ok () → collecting = false) := by
  simp only [stopCollectors, yields_bind, yields_theRun]
  refine (yields_callCollectors .stop _ s).mono fun r t ht => ?_
  obtain ⟨collectors, hlabels, hrun⟩ := ht
  cases r with
  | error e => exact ⟨collectors, s.run.collecting, hlabels, hrun, .inl rfl, fun h => by cases h⟩
  | ok _ =>
    simp only [yields_modifyRun]
    exact ⟨collectors, false, hlabels, by rw [hrun], .inr rfl, fun _ => rfl⟩

/-- What an abort does to a run: it calls its collectors, and it leaves no iteration open unless one
of them breaks off.  Where none is open nothing happens. -/
theorem yields_abort (s : Session κ) :
    Yields abort s fun r t => ∃ (collectors : List (Collector κ)) (collecting : Bool),
      labels { s.run with collectors := collectors } = s.run.labels ∧
        t.run = { s.run with collectors := collectors, collecting := collecting } ∧
        (collecting = s.run.collecting ∨ collecting = false) ∧
        (r = .ok () → collecting = false) := by
  simp only [abort, yields_bind, yields_theRun]
  by_cases hcollecting : s.run.collecting
  · simp only [if_pos hcollecting]
    exact yields_stopCollectors s
  · simp only [if_neg hcollecting, yields_pure]
    exact ⟨s.run.collectors, s.run.collecting, rfl, rfl, .inl rfl,
      fun _ => by simpa using hcollecting⟩

/-- Calls of the collectors of a run, and the end of its iteration, are changes. -/
theorem changes_of_stopped {r r' : Run κ} {collectors : List (Collector κ)} {collecting : Bool}
    (hlabels : labels { r with collectors := collectors } = r.labels)
    (hrun : r' = { r with collectors := collectors, collecting := collecting })
    (hcollecting : collecting = r.collecting ∨ collecting = false) : ReflTransGen Change r r' := by
  subst hrun
  rcases hcollecting with rfl | rfl
  · exact .single (.called hlabels)
  · exact .tail (.single (.called hlabels)) .closed

theorem moves_abort : Moves Change (abort : Step κ Unit) s := by
  refine (yields_abort s).mono fun _ _ hstopped => ?_
  obtain ⟨_, _, hlabels, hrun, hcollecting, -⟩ := hstopped
  exact changes_of_stopped hlabels hrun hcollecting

theorem moves_writeSample {w : Writer} (h : s.run.store = .writing w) :
    Moves Change (writeSample w : Step κ Unit) s := by
  refine (yields_writeSample w s).mono ?_
  rintro r t (⟨-, hok, rfl⟩ | ⟨fault, -, hfault, rfl⟩)
  · exact .single (.written h hok)
  · exact .single (.refused h hfault)

theorem moves_stop : Moves Change (stop : Step κ Unit) s := by
  refine moves_theRun ?_
  cases hstore : s.run.store with
  | sealed reader => exact moves_fail _
  | lost => exact moves_fail _
  | writing w =>
    by_cases hcollecting : s.run.collecting
    · simp only [hcollecting]
      rw [Moves]
      refine (yields_bind _ _).2 ?_
      refine (yields_stopCollectors s).mono fun r t ht => ?_
      obtain ⟨collectors, collecting, hlabels, hrun, hclosed, -⟩ := ht
      have hchanges := changes_of_stopped hlabels hrun hclosed
      cases r with
      | error e => exact hchanges
      | ok _ =>
        have hstore' : t.run.store = .writing w := by rw [hrun]; exact hstore
        exact Yields.mono (moves_writeSample hstore') fun _ _ hu => hchanges.trans hu
    · simp only [hcollecting]
      exact moves_fail _

theorem moves_attach (name : String) (value : Int64) :
    Moves Change (attach name value : Step κ Unit) s := by
  refine (yields_attach name value s).mono ?_
  rintro r t (⟨w, hstore, hname, -, -, rfl⟩ | ⟨f, -, rfl⟩)
  · exact .single (.attached hstore hname value)
  · exact .refl

/-! ## The measured iterations -/

variable {token : Token}

theorem moves_repeatBody (first : Bool) (n : Nat) :
    Moves Change (repeatBody token first n : Step κ Unit) s := by
  induction n generalizing first s with
  | zero => exact .refl
  | succ n ih =>
    have hrest {s : Session κ} :
        Moves Change (do callHook token .body; repeatBody token false n : Step κ Unit) s :=
      (moves_callHook token .body).bind fun _ _ _ => ih false
    cases first with
    | true => exact hrest
    | false => exact (moves_inWorld _).bind fun _ _ _ => hrest

theorem moves_runBody : Moves Change (runBody token : Step κ Unit) s :=
  moves_theRun (moves_repeatBody true _)

theorem moves_warmup : Moves Change (warmup token : Step κ Unit) s := by
  have hfor (n : Nat) (s : Session κ) : Moves Change (warmupFor token n : Step κ Unit) s := by
    induction n generalizing s with
    | zero => exact .refl
    | succ n ih =>
      exact (moves_inWorld _).bind fun _ _ _ => (moves_callHook token .before).bind fun _ _ _ =>
        moves_runBody.bind fun _ _ _ => (moves_callHook token .after).bind fun _ t _ => ih t
  exact moves_theRun (hfor _ s)

/-- An iteration answers only where the store takes values, and it still does so afterwards. -/
theorem moves_iterate : Yields (iterate token : Step κ Unit) s fun r t =>
    ReflTransGen Change s.run t.run ∧ (r = .ok () → t.run.isFinalized = false) := by
  unfold iterate
  rw [yields_bind]
  refine Yields.mono (moves_callHook (R := Change) token .before) fun r t ht => ?_
  cases r with
  | error e => exact ⟨ht, fun h => by cases h⟩
  | ok _ =>
    dsimp only
    rw [yields_bind, yields_theRun]
    dsimp only
    rw [yields_bind]
    refine (yields_start t.run.mode t).mono fun r u hstart => ?_
    obtain ⟨hu, hwriting, -⟩ := hstart
    cases r with
    | error e => exact ⟨ht.trans hu, fun h => by cases h⟩
    | ok _ =>
      have hopen := changes_writing hu (hwriting rfl)
      refine Yields.mono ((moves_settle moves_runBody).bind fun r v _ => ?_) fun _ v hv =>
        ⟨ht.trans (hu.trans hv), fun _ => changes_writing hv hopen⟩
      cases r with
      | error failure => exact moves_abort.bind fun _ _ _ => moves_fail failure
      | ok _ => exact moves_stop.bind fun _ _ _ => moves_callHook token .after

/-- The measured iterations neither seal the store nor touch the status, and they note an early stop
only where the store takes values. -/
theorem moves_measure : Moves Change (measure token : Step κ Unit) s := by
  have hfrom (n iteration : Nat) (s : Session κ) :
      Moves Change (measureFrom token iteration n : Step κ Unit) s := by
    induction n generalizing iteration s with
    | zero => exact .refl
    | succ n ih =>
      refine (moves_inWorld _).bind fun _ t _ => ?_
      rw [Moves, yields_bind]
      refine moves_iterate.mono fun r u hiterated => ?_
      obtain ⟨hu, hwriting⟩ := hiterated
      cases r with
      | error e => exact hu
      | ok _ =>
        refine Yields.mono (P := fun _ v => ReflTransGen Change u.run v.run) ?_
          fun _ _ hv => hu.trans hv
        refine moves_theRun ?_
        split
        · obtain ⟨w, hw⟩ := isFinalized_eq_false_iff.1 (hwriting rfl)
          exact .single (.early hw)
        · exact ih _ u
  exact moves_theRun (hfrom _ 1 s)

/-! ## The end of writing -/

/-- To finalize is to abort and then to seal the store or to lose it, unless a collector breaks off
before. -/
theorem turns_finalize (failure : Option Failure) :
    Moves Turn (finalize failure : Step κ Unit) s := by
  simp only [Moves, finalize, yields_bind]
  refine (yields_abort s).mono fun r t hstopped => ?_
  obtain ⟨_, _, hlabels, hrun, hcollecting, hclosed⟩ := hstopped
  have hchanges : ReflTransGen Turn s.run t.run :=
    Relation.ReflTransGen.mono (fun _ _ => Turn.change) _ _
      (changes_of_stopped hlabels hrun hcollecting)
  cases r with
  | error e => exact hchanges
  | ok _ =>
    have hnone : t.run.collecting = false := by rw [hrun]; exact hclosed rfl
    simp only [yields_theRun]
    cases hsealed : t.run.store.toReader with
    | error fault => exact hchanges.tail (.lost hsealed hnone)
    | ok reader =>
      have hturn := hchanges.tail (.sealed hsealed hnone failure)
      cases failure <;> exact hturn

theorem turns_mainLoop : Moves Turn (mainLoop token : Step κ Unit) s := by
  refine (moves_settle (moves_measure.mono fun _ _ => .change)).bind fun r t _ => ?_
  cases r with
  | ok _ => exact .refl
  | error f => exact turns_finalize (some f)

omit [Device κ] in
/-- The ceilings are looked at without any change. -/
theorem moves_checkOwnCeilings {R : Run κ → Run κ → Prop} :
    Moves R (checkOwnCeilings : Step κ Unit) s := by
  refine moves_theRun ?_
  dsimp only
  split
  · refine moves_theRun ?_
    cases s.run.reader with
    | error f => exact moves_fail f
    | ok reader => exact moves_ofResult _
  · exact .refl

theorem turns_execute : Moves Turn (execute token : Step κ Unit) s := by
  refine (moves_prepare.mono fun _ _ => .change).bind fun _ t _ => ?_
  refine (moves_settle (moves_warmup.mono fun _ _ => .change)).bind fun r u _ => ?_
  cases r with
  | error f => exact turns_finalize (some f)
  | ok _ =>
    exact turns_mainLoop.bind fun _ _ _ => (turns_finalize none).bind fun _ _ _ =>
      moves_checkOwnCeilings

theorem alters_dispose : Moves Alters (dispose : Step κ Unit) s := by
  refine moves_theRun ?_
  cases hstore : s.run.store with
  | writing w => exact moves_fail _
  | lost => exact .refl
  | sealed reader =>
    have halters : Alters s.run { s.run with store := .sealed reader.dispose.2 } := .disposed hstore
    exact (moves_modifyRun halters).bind fun _ _ _ => moves_ofResult _

/-- **Every operation is a sequence of turns** unless it gives the samples up, also one that fails
or breaks off. -/
theorem turns_perform (token : Token) {operation : Operation} (hkeeps : operation ≠ .dispose)
    (s : Session κ) : Moves Turn (operation.perform token : Step κ Unit) s := by
  have hstart (mode : CollectionMode) : Moves Turn (start mode : Step κ Unit) s :=
    Moves.mono ((yields_start mode s).mono fun _ _ h => h.1) fun _ _ => .change
  cases operation with
  | prepare => exact moves_prepare.mono fun _ _ => .change
  | start => exact hstart .fresh
  | restart => exact hstart .accumulate
  | stop => exact moves_stop.mono fun _ _ => .change
  | abort => exact moves_abort.mono fun _ _ => .change
  | attach name value => exact (moves_attach name value).mono fun _ _ => .change
  | warmup => exact moves_warmup.mono fun _ _ => .change
  | mainLoop => exact turns_mainLoop
  | execute => exact turns_execute
  | finalize failure => exact turns_finalize failure
  | dispose => exact absurd rfl hkeeps

theorem alters_perform (token : Token) (operation : Operation) (s : Session κ) :
    Moves Alters (operation.perform token : Step κ Unit) s := by
  by_cases hdispose : operation = .dispose
  · subst hdispose
    exact alters_dispose
  · exact (turns_perform token hdispose s).mono fun _ _ => .turn

end Run

namespace Session

variable {κ : Type} [Device κ] {s t u : Session κ}

/-- **Every history of a run is a sequence of changes.** -/
theorem Leads.alters (h : s.Leads t) : ReflTransGen Run.Alters s.run t.run := by
  induction h with
  | refl => exact .refl
  | @perform t work token operation _ ih =>
    exact ih.trans (Step.yields_after_iff.1
      (Run.alters_perform token operation { t with work := work }))
  | pass _ _ ih => exact ih

end Session

end Gauge
