import Gauge.Proofs.Run.Changes
import Gauge.Proofs.Run.Outcome
import Gauge.Proofs.Run.Spared

/-!
# Sealing is final

Once the store of a run takes no more values, nothing that is done with the run changes what it has
measured: only its samples can be given up.  Its status goes from open to complete and to failed and
never back, and it has failed exactly when a failure was handed to the end of writing or the store
was lost there.

## Main definitions

* `RunStatus.Becomes` — the way of a status.
* `Run.Sound` — the status of a run tells whether its store takes values.
* `Run.Remains` — what stays of a run whose store takes no more values.
* `Run.Operation.failure?` — the failure that an operation hands to the end of writing.
* `Run.HandedFailure` — a failure was handed to the end of writing in the history of a run.
* `Run.Final` — what is final about a run whose store takes no more values.

## Main statements

* `Run.Alters.remains` — no change of a run reaches what stays of it.
* `Run.yields_status` — when an operation makes a run fail.
* `Run.failed_iff` — when a run has failed.
* `Run.sealing_is_final` — all of this for any history of a new run.
-/

namespace Gauge

open Relation (ReflTransGen)

/-- The way of a status: an open run completes, and any run can fail. -/
inductive RunStatus.Becomes : RunStatus → RunStatus → Prop
  | stays (status : RunStatus) : Becomes status status
  | completes : Becomes .open .complete
  | fails (status : RunStatus) : Becomes status .failed

theorem RunStatus.Becomes.trans {a b c : RunStatus} (h : a.Becomes b) (h' : b.Becomes c) :
    a.Becomes c := by
  cases h' with
  | stays => exact h
  | fails => exact .fails a
  | completes =>
    cases h
    exact .completes

theorem RunStatus.Becomes.eq_failed {a b : RunStatus} (h : a.Becomes b) (ha : a = .failed) :
    b = .failed := by
  cases h with
  | stays => exact ha
  | fails => rfl
  | completes => cases ha

namespace Run

variable {κ : Type} {r r' r'' : Run κ}

/-- The status of a run tells whether its store takes values.  A run whose store does not take them
has no iteration that is open, and one that lost its store has failed. -/
structure Sound (r : Run κ) : Prop where
  status : r.status = .open ↔ r.isFinalized = false
  closed : r.isFinalized → r.collecting = false
  lost : r.store = .lost → r.status = .failed

/-- What stays of a run whose store takes no more values: its counts, and its store, except that the
samples of the store can be given up. -/
structure Remains (r r' : Run κ) : Prop where
  executions : r'.executions = r.executions
  early : r'.earlyStopped = r.earlyStopped
  store : r'.store = r.store ∨
    ∃ reader, r.store = .sealed reader ∧ r'.store = .sealed reader.dispose.2

theorem Remains.refl (r : Run κ) : r.Remains r := ⟨rfl, rfl, .inl rfl⟩

/-- Samples that are given up twice are given up. -/
theorem Remains.trans (h : r.Remains r') (h' : r'.Remains r'') : r.Remains r'' := by
  refine ⟨h'.executions.trans h.executions, h'.early.trans h.early, ?_⟩
  rcases h.store with hstore | ⟨reader, hreader, hdisposed⟩
  · rw [← hstore]
    exact h'.store
  · refine .inr ⟨reader, hreader, ?_⟩
    rcases h'.store with hstore' | ⟨reader', hreader', hdisposed'⟩
    · exact hstore'.trans hdisposed
    · rw [hdisposed] at hreader'
      cases hreader'
      exact hdisposed'

theorem Remains.isFinalized (h : r.Remains r') (hr : r.isFinalized) : r'.isFinalized := by
  rcases h.store with hstore | ⟨reader, -, hdisposed⟩
  · rwa [Run.isFinalized, hstore]
  · rw [Run.isFinalized, hdisposed]

/-- The aggregates are those of the store that was sealed. -/
theorem Remains.summary (h : r.Remains r') (name : String) :
    r'.reader.map (·.summary? name) = r.reader.map (·.summary? name) := by
  rcases h.store with hstore | ⟨reader, hreader, hdisposed⟩
  · rw [Run.reader, Run.reader, hstore]
  · rw [Run.reader, Run.reader, hreader, hdisposed]
    rfl

theorem Remains.storeMode (h : r.Remains r') : r'.storeMode? = r.storeMode? := by
  rcases h.store with hstore | ⟨reader, hreader, hdisposed⟩
  · rw [storeMode?, storeMode?, hstore]
  · rw [storeMode?, storeMode?, hreader, hdisposed]
    rfl

theorem isFinalized_of_store {w : Writer} (h : r.store = .writing w) : r.isFinalized = false :=
  isFinalized_eq_false_iff.2 ⟨w, h⟩

variable [Device κ]

/-! ## One turn -/

theorem Change.remains (h : r.Change r') (hr : r.isFinalized) :
    r'.executions = r.executions ∧ r'.earlyStopped = r.earlyStopped ∧ r'.store = r.store := by
  have hnever {w : Writer} {P : Prop} (hstore : r.store = .writing w) : P := by
    rw [isFinalized_of_store hstore] at hr
    cases hr
  cases h with
  | ordered | called | closed => exact ⟨rfl, rfl, rfl⟩
  | opened hstore | early hstore => exact hnever hstore
  | noted hstore | written hstore | refused hstore | attached hstore => exact hnever hstore

/-- A store that takes no more values is not changed by a turn: sealing it once more gives the same
store, and one that is lost stays so. -/
theorem Turn.remains (h : r.Turn r') (hr : r.isFinalized) :
    r'.executions = r.executions ∧ r'.earlyStopped = r.earlyStopped ∧ r'.store = r.store := by
  cases h with
  | change h => exact h.remains hr
  | sealed hreader =>
    refine ⟨rfl, rfl, ?_⟩
    cases hstore : r.store with
    | writing w => simp [isFinalized_of_store hstore] at hr
    | lost => simp [hstore, RunStore.toReader] at hreader
    | sealed old =>
      rw [hstore] at hreader
      cases hreader
      rfl
  | lost hfault =>
    refine ⟨rfl, rfl, ?_⟩
    cases hstore : r.store with
    | writing w => simp [isFinalized_of_store hstore] at hr
    | lost => rfl
    | sealed old =>
      rw [hstore] at hfault
      cases hfault

/-- No change of a run reaches what stays of it. -/
theorem Alters.remains (h : r.Alters r') (hr : r.isFinalized) : r.Remains r' := by
  cases h with
  | disposed hstore => exact ⟨rfl, rfl, .inr ⟨_, hstore, rfl⟩⟩
  | turn h =>
    obtain ⟨hexecutions, hearly, hstore⟩ := h.remains hr
    exact ⟨hexecutions, hearly, .inl hstore⟩

/-- A status only goes its way. -/
theorem Alters.becomes (h : r.Alters r') : r.status.Becomes r'.status := by
  cases h with
  | disposed => exact .stays _
  | turn h =>
    cases h with
    | change h =>
      rw [h.status]
      exact .stays _
    | lost => exact .fails _
    | sealed _ _ failure =>
      cases failure with
      | some f => exact .fails _
      | none =>
        cases hstatus : r.status with
        | «open» => exact .completes
        | complete | failed => exact .stays _

theorem Change.isFinalized (h : r.Change r') : r'.isFinalized = r.isFinalized := by
  cases h with
  | ordered | called | opened | closed | early => rfl
  | noted hstore | written hstore | refused hstore | attached hstore =>
    exact (isFinalized_of_store hstore).symm

theorem Change.sound (h : r.Change r') (hr : r.Sound) : r'.Sound := by
  refine ⟨by rw [h.status, h.isFinalized]; exact hr.status, fun hfinal => ?_, fun hlost => ?_⟩
  · rw [h.isFinalized] at hfinal
    cases h with
    | ordered | called | early | noted | written | refused | attached => exact hr.closed hfinal
    | closed => rfl
    | opened hstore => simp [isFinalized_of_store hstore] at hfinal
  · rw [h.status]
    cases h with
    | ordered | called | opened | closed | early => exact hr.lost hlost
    | noted | written | refused | attached => cases hlost

theorem statusAfter_ne_open (failure : Option Failure) (status : RunStatus) :
    statusAfter failure status ≠ .open := by
  cases failure <;> cases status <;> simp [statusAfter]

theorem Alters.sound (h : r.Alters r') (hr : r.Sound) : r'.Sound := by
  cases h with
  | disposed hstore =>
    have hfinal : r.isFinalized := isFinalized_of_sealed hstore
    have hopen : r.status ≠ .open := fun hopen => by simp [hr.status.1 hopen] at hfinal
    exact ⟨⟨fun h => absurd h hopen, fun h => (by cases h)⟩, fun _ => hr.closed hfinal,
      fun h => by cases h⟩
  | turn h =>
    cases h with
    | change h => exact h.sound hr
    | lost _ hclosed =>
      exact ⟨⟨fun h => (by cases h), fun h => (by cases h)⟩, fun _ => hclosed, fun _ => rfl⟩
    | sealed _ hclosed failure =>
      exact ⟨⟨fun h => absurd h (statusAfter_ne_open failure r.status), fun h => (by cases h)⟩,
        fun _ => hclosed, fun h => by cases h⟩

/-! ## Any changes -/

theorem sound_of_alters (h : ReflTransGen Alters r r') (hr : r.Sound) : r'.Sound := by
  induction h with
  | refl => exact hr
  | tail _ halters ih => exact halters.sound ih

theorem becomes_of_alters (h : ReflTransGen Alters r r') : r.status.Becomes r'.status := by
  induction h with
  | refl => exact .stays _
  | tail _ halters ih => exact ih.trans halters.becomes

theorem remains_of_alters (h : ReflTransGen Alters r r') (hr : r.isFinalized) : r.Remains r' := by
  induction h with
  | refl => exact .refl r
  | tail _ halters ih => exact ih.trans (halters.remains (ih.isFinalized hr))

theorem store_of_turns (h : ReflTransGen Turn r r') (hr : r.isFinalized) : r'.store = r.store := by
  induction h with
  | refl => rfl
  | @tail r' r'' _ hturn ih =>
    have hr' : r'.isFinalized := by rwa [Run.isFinalized, ih]
    exact (hturn.remains hr').2.2.trans ih

end Run

/-! ## How a run fails -/

/-- The failure that a step ends with. -/
def failureOf? : Except Halt Unit → Option Failure
  | .error (.failure f) => some f
  | _ => none

theorem failureOf?_of_break {e : Halt} (he : ∀ f, e ≠ .failure f) :
    failureOf? (.error e) = none := by
  cases e with
  | failure f => exact absurd rfl (he f)
  | panic p | abandoned => rfl

namespace Run

open Session Step

variable {κ : Type} [Device κ] {s : Session κ}

/-- What a run does before writing ends: it settles the order, warms up and measures. -/
def runUp (token : Token) : Step κ Unit := do
  prepare
  warmup token
  measure token

/-- The failure that an operation hands to the end of writing: that of its caller, or the one that
its own iterations end with. -/
def Operation.failure? (token : Token) (s : Session κ) : Operation → Option Failure
  | .finalize failure => failure
  | .mainLoop => failureOf? (answer (measure token) s)
  | .execute => failureOf? (answer (runUp token) s)
  | _ => none

/-- The end of writing: either a collector breaks off in the abort before it, and the status stays,
or it answers the failure that it was handed, and the status is the one after that failure unless
the store was lost. -/
theorem yields_finalize_status (failure : Option Failure) (s : Session κ) :
    Yields (finalize failure) s fun r t =>
      (answer abort s = r ∧ ¬ Proper r ∧ t.run.status = s.run.status) ∨
      (answer abort s = .ok () ∧ Proper r ∧ (∀ f, failure = some f → r = .error (.failure f)) ∧
        (t.run.status = statusAfter failure s.run.status ∨
          t.run.store = .lost ∧ t.run.status = .failed)) := by
  simp only [finalize, yields_bind]
  cases habort : abort s with
  | error e t =>
    obtain ⟨_, _, -, hrun, -⟩ := (yields_abort s).of_error habort
    rw [Yields, habort]
    refine .inl ⟨by rw [answer, habort], ?_, by rw [hrun]⟩
    rintro ⟨f, rfl⟩
    exact (unfailing_abort s).of_error habort f rfl
  | ok _ t =>
    obtain ⟨_, _, -, hrun, -⟩ := (yields_abort s).of_ok habort
    have hstatus : t.run.status = s.run.status := by rw [hrun]
    rw [Yields, habort]
    simp only [yields_theRun]
    have hanswer : answer abort s = .ok () := by rw [answer, habort]
    cases t.run.store.toReader with
    | error fault =>
      refine .inr ⟨hanswer, ⟨_, rfl⟩, ?_, .inr ⟨rfl, rfl⟩⟩
      rintro f rfl
      rfl
    | ok reader =>
      rw [← hstatus]
      cases failure with
      | none => exact .inr ⟨hanswer, trivial, fun f hf => (by cases hf), .inl rfl⟩
      | some f =>
        refine .inr ⟨hanswer, ⟨f, rfl⟩, ?_, .inl rfl⟩
        rintro g hg
        cases hg
        rfl

/-- What is measured and then ended: how that comes to fail. -/
def Fails (before : RunStatus) (failure : Option Failure) (r : Except Halt Unit) (t : Session κ) :
    Prop :=
  (t.run.status = .failed →
    before = .failed ∨ t.run.store = .lost ∨ failure.isSome ∧ Proper r) ∧
  (failure.isSome → Proper r → t.run.status = .failed)

omit [Device κ] in
theorem fails_of_status {before : RunStatus} {r : Except Halt Unit} {t : Session κ}
    (h : t.run.status = before) : Fails before none r t :=
  ⟨fun hfailed => .inl (h.symm.trans hfailed), fun hsome => by cases hsome⟩

theorem fails_finalize (failure : Option Failure) (s : Session κ) :
    Yields (finalize failure) s (Fails s.run.status failure) := by
  refine (yields_finalize_status failure s).mono fun r t h => ?_
  rcases h with ⟨-, hbreaks, hstatus⟩ | ⟨-, hproper, -, hstatus | ⟨hlost, hfailed⟩⟩
  · exact ⟨fun hfailed => .inl (hstatus.symm.trans hfailed),
      fun _ hproper => absurd hproper hbreaks⟩
  · cases failure with
    | some f => exact ⟨fun _ => .inr (.inr ⟨rfl, hproper⟩), fun _ _ => hstatus⟩
    | none =>
      refine ⟨fun hfailed => .inl ?_, fun hsome => by cases hsome⟩
      rw [hfailed] at hstatus
      cases hbefore : s.run.status <;> simp [statusAfter, hbefore] at hstatus ⊢
  · exact ⟨fun _ => .inr (.inl hlost), fun _ _ => hfailed⟩

/-- Steps that leave the status, and then the end of writing: it gets the failure of those steps. -/
theorem fails_settled {x y : Step κ Unit} (hx : Moves Change x s)
    (hy : ∀ t, Yields y t (Fails t.run.status none)) :
    Yields (do
      match ← settle x with
      | .ok () => y
      | .error f => finalize (some f)) s (Fails s.run.status (failureOf? (answer x s))) := by
  cases hend : x s with
  | ok a t =>
    have hnone : failureOf? (answer x s) = none := by rw [answer, hend]; rfl
    rw [hnone, ← changes_status (hx.of_ok hend)]
    exact Yields.congr (hy t) (bind_of_ok (settle_of_ok hend) _)
  | error e t =>
    have hstatus := changes_status (hx.of_error hend)
    have hanswer : answer x s = .error e := by rw [answer, hend]
    rcases e.failure_or with ⟨f, rfl⟩ | hbreak
    · rw [hanswer, failureOf?, ← hstatus]
      exact Yields.congr (fails_finalize (some f) t) (bind_of_ok (settle_of_failure hend) _)
    · rw [hanswer, failureOf?_of_break hbreak, Yields, bind_of_error (settle_of_break hbreak hend)]
      exact fails_of_status hstatus

/-- A run answers as its iterations and the end of writing after them. -/
theorem execute_eq_runUp (token : Token) (s : Session κ) :
    execute token s = (do
      match ← settle (runUp token) with
      | .ok () =>
        finalize none
        checkOwnCeilings
      | .error f => finalize (some f)) s := by
  have hrunUp : runUp token s = loop true token s.prepared := rfl
  have hexecute : execute token s =
      (settle (loop true token) >>= conclude (do finalize none; checkOwnCeilings)) s.prepared :=
    conclude_loop true token _ s.prepared
  rw [hexecute]
  refine bind_congr_at (settle_congr hrunUp.symm) fun r t _ => ?_
  cases r <;> rfl

/-- **When an operation makes a run fail**: it hands a failure to the end of writing, or the store
is lost there. -/
theorem yields_status (token : Token) (operation : Operation) (s : Session κ) :
    Yields (operation.perform token) s (Fails s.run.status (operation.failure? token s)) := by
  have hstays {r r' : Run κ} (h : ReflTransGen (fun r r' => r'.status = r.status) r r') :
      r'.status = r.status := by
    induction h with
    | refl => rfl
    | tail _ hstep ih => exact hstep.trans ih
  have hkeeps {x : Step κ Unit} (hx : Moves (fun r r' => r'.status = r.status) x s) :
      Yields x s (Fails s.run.status none) :=
    Yields.mono hx fun _ _ h => fails_of_status (hstays h)
  have hchanges {x : Step κ Unit} (hx : Moves Change x s) : Yields x s (Fails s.run.status none) :=
    hkeeps (hx.mono fun _ _ => Change.status)
  cases operation with
  | prepare => exact hchanges moves_prepare
  | start => exact hchanges ((yields_start .fresh s).mono fun _ _ h => h.1)
  | restart => exact hchanges ((yields_start .accumulate s).mono fun _ _ h => h.1)
  | stop => exact hchanges moves_stop
  | abort => exact hchanges moves_abort
  | attach name value => exact hchanges (moves_attach name value)
  | warmup => exact hchanges moves_warmup
  | finalize failure => exact fails_finalize failure s
  | mainLoop => exact fails_settled moves_measure fun t => fails_of_status rfl
  | execute =>
    refine Yields.congr (fails_settled ?_ fun t => ?_) (execute_eq_runUp token s)
    · exact moves_prepare.bind fun _ _ _ => moves_warmup.bind fun _ _ _ => moves_measure
    · rw [yields_bind]
      refine (fails_finalize none t).mono fun r u hu => ?_
      cases r with
      | error e => exact hu
      | ok _ =>
        refine Yields.mono (moves_checkOwnCeilings (R := fun _ _ => False)) fun _ v hv => ?_
        rw [Relation.reflTransGen_iff_eq fun _ h => h] at hv
        exact ⟨fun hfailed => (hu.1 (hv ▸ hfailed)).imp id fun h => .inl (by simpa [hv] using h),
          fun hsome => by cases hsome⟩
  | dispose =>
    refine hkeeps (moves_theRun ?_)
    cases s.run.store with
    | writing w => exact moves_fail _
    | lost => exact .refl
    | sealed reader => exact (moves_modifyRun rfl).bind fun _ _ _ => moves_ofResult _

/-! ## What is refused -/

/-- A run whose store takes no more values refuses to write. -/
theorem refuses_of_finalized (h : s.run.isFinalized) :
    (∀ mode, ∃ f, answer (start mode) s = .error (.failure f)) ∧
      (∃ f, answer stop s = .error (.failure f)) ∧
      ∀ name value, ∃ f, answer (attach name value) s = .error (.failure f) := by
  have hstop : Yields stop s fun r _ => ∃ f, r = .error (.failure f) := by
    simp only [stop, yields_bind, yields_theRun]
    cases hstore : s.run.store with
    | writing w => simp [isFinalized_of_store hstore] at h
    | sealed reader => exact ⟨_, rfl⟩
    | lost => exact ⟨_, rfl⟩
  have hattach (name : String) (value : Int64) :
      Yields (attach name value) s fun r _ => ∃ f, r = .error (.failure f) := by
    refine (yields_attach name value s).mono ?_
    rintro r t (⟨w, hstore, -⟩ | ⟨f, hfailed, -⟩)
    · simp [isFinalized_of_store hstore] at h
    · exact ⟨f, hfailed⟩
  exact ⟨fun mode => (yields_iff.1 (yields_start mode s)).2.2 h, yields_iff.1 hstop,
    fun name value => yields_iff.1 (hattach name value)⟩

/-- Sealing a sealed store once more without a failure changes nothing. -/
theorem finalize_of_sealed {reader : Reader} (hs : s.run.Sound) (h : s.run.store = .sealed reader) :
    answer (finalize none) s = .ok () ∧ after (finalize none) s = s := by
  have hfinal : s.run.isFinalized := isFinalized_of_sealed h
  have hopen : s.run.status ≠ .open := fun hopen => by simp [hs.status.1 hopen] at hfinal
  have hstatus : statusAfter none s.run.status = s.run.status := by
    cases hstatus : s.run.status with
    | «open» => exact absurd hstatus hopen
    | complete | failed => rfl
  have hsealed : { s with run := { s.run with
      store := .sealed reader, status := statusAfter none s.run.status } } = s := by
    rw [hstatus, ← h]
  have hyields : Yields (finalize none) s fun r t => r = .ok () ∧ t = s := by
    simp only [finalize, yields_bind]
    rw [Yields, abort_of_closed (hs.closed hfinal)]
    simp only [yields_theRun, h]
    exact ⟨rfl, hsealed⟩
  exact yields_iff.1 hyields

/-- The failure that the end of writing is handed is its answer, unless a collector breaks off
before the store is sealed. -/
theorem answer_finalize (f : Failure) (s : Session κ) :
    answer (finalize (some f)) s = .error (.failure f) ∨
      ∃ e, answer abort s = .error e ∧ answer (finalize (some f)) s = .error e := by
  rcases yields_iff.1 (yields_finalize_status (some f) s) with
    ⟨habort, hbreaks, -⟩ | ⟨-, -, hanswer, -⟩
  · cases hr : answer (finalize (some f)) s with
    | ok a => simp [hr, Proper] at hbreaks
    | error e => exact .inr ⟨e, habort.trans hr, rfl⟩
  · exact .inl (hanswer f rfl)

/-! ## Any history -/

variable {t : Session κ}

omit [Device κ] in
/-- The status of a new run is sound. -/
theorem sound_of_fresh (h : s.Fresh) : s.run.Sound := by
  rw [h.run_eq]
  exact ⟨⟨fun _ => rfl, fun _ => rfl⟩, fun h => (by cases h), fun h => (by cases h)⟩

/-- A store that takes no more values stays the same until the samples are given up. -/
theorem store_until_dispose (ht : t.run.isFinalized) {u : Session κ} (h : t.Leads u) :
    u.run.store = t.run.store ∨ ∃ v work token, t.Leads v ∧
      (after (Operation.dispose.perform token) { v with work := work }).Leads u := by
  induction h with
  | refl => exact .inl rfl
  | pass _ hw ih =>
    refine ih.imp id ?_
    rintro ⟨v, work, token, hv, hu⟩
    exact ⟨v, work, token, hv, .pass hu hw⟩
  | @perform u work token operation hu ih =>
    by_cases hdispose : operation = .dispose
    · subst hdispose
      exact .inr ⟨u, work, token, hu, .refl⟩
    rcases ih with hstore | ⟨v, work', token', hv, hvu⟩
    · have hfinal : u.run.isFinalized := (remains_of_alters hu.alters ht).isFinalized ht
      exact .inl ((store_of_turns (yields_after_iff.1
        (turns_perform token hdispose { u with work := work })) hfinal).trans hstore)
    · exact .inr ⟨v, work', token', hv, .perform work token operation hvu⟩

/-- Somewhere on the way to `t` an operation that came to its end handed a failure to the end of
writing. -/
def HandedFailure (s t : Session κ) : Prop :=
  ∃ u work token operation, s.Leads u ∧
    (Operation.failure? token { u with work := work } operation).isSome ∧
    Proper (answer (operation.perform token) { u with work := work }) ∧
    (after (operation.perform token) { u with work := work }).Leads t

/-- **A run has failed exactly when it lost its store or a failure was handed to the end of
writing.** -/
theorem failed_iff (hfresh : s.Fresh) (h : s.Leads t) :
    t.run.status = .failed ↔ t.run.store = .lost ∨ HandedFailure s t := by
  constructor
  · intro hfailed
    induction h with
    | refl =>
      rw [hfresh.run_eq] at hfailed
      cases hfailed
    | pass _ hw ih =>
      refine (ih hfailed).imp id ?_
      rintro ⟨u, work, token, operation, hu, hfailure, hproper, ht⟩
      exact ⟨u, work, token, operation, hu, hfailure, hproper, .pass ht hw⟩
    | @perform t work token operation ht ih =>
      have hend := yields_iff.1 (yields_status token operation { t with work := work })
      rcases hend.1 hfailed with hbefore | hlost | ⟨hfailure, hproper⟩
      · rcases ih hbefore with hlost | ⟨u, work', token', operation', hu, hfailure, hproper, hut⟩
        · -- a store that is lost stays lost
          have hfinal : t.run.isFinalized := by rw [Run.isFinalized, hlost]
          have hremains := remains_of_alters (yields_after_iff.1
            (alters_perform token operation { t with work := work })) hfinal
          rcases hremains.store with hstore | ⟨reader, hreader, -⟩
          · exact .inl (hstore.trans hlost)
          · simp [hlost] at hreader
        · exact .inr ⟨u, work', token', operation', hu, hfailure, hproper,
            .perform work token operation hut⟩
      · exact .inl hlost
      · exact .inr ⟨t, work, token, operation, ht, hfailure, hproper, .refl⟩
  · rintro (hlost | ⟨u, work, token, operation, hu, hfailure, hproper, ht⟩)
    · exact (sound_of_alters h.alters (sound_of_fresh hfresh)).lost hlost
    · have hfailed := (yields_iff.1 (yields_status token operation { u with work := work })).2
        hfailure hproper
      exact (becomes_of_alters ht.alters).eq_failed hfailed

/-- What is final about a run whose store takes no more values, whatever its caller does. -/
structure Final (t : Session κ) : Prop where
  finalized : ∀ u, t.Leads u → u.run.isFinalized
  executions : ∀ u, t.Leads u → u.run.executions = t.run.executions
  early : ∀ u, t.Leads u → u.run.earlyStopped = t.run.earlyStopped
  mode : ∀ u, t.Leads u → u.run.storeMode? = t.run.storeMode?
  summary : ∀ u, t.Leads u → ∀ name,
    u.run.reader.map (·.summary? name) = t.run.reader.map (·.summary? name)
  samples : ∀ u, t.Leads u → u.run.reader.map Reader.samples = t.run.reader.map Reader.samples ∨
    ∃ v work token, t.Leads v ∧
      (after (Operation.dispose.perform token) { v with work := work }).Leads u
  refuses : ∀ u, t.Leads u → (∀ mode, ∃ f, answer (start mode) u = .error (.failure f)) ∧
    (∃ f, answer stop u = .error (.failure f)) ∧
    ∀ name value, ∃ f, answer (attach name value) u = .error (.failure f)

theorem final_of_finalized (h : t.run.isFinalized) : Final t := by
  have hremains (u : Session κ) (hu : t.Leads u) : t.run.Remains u.run :=
    remains_of_alters hu.alters h
  refine ⟨fun u hu => (hremains u hu).isFinalized h, fun u hu => (hremains u hu).executions,
    fun u hu => (hremains u hu).early, fun u hu => (hremains u hu).storeMode,
    fun u hu => (hremains u hu).summary, fun u hu => ?_,
    fun u hu => refuses_of_finalized ((hremains u hu).isFinalized h)⟩
  refine (store_until_dispose h hu).imp (fun hstore => ?_) id
  rw [Run.reader, Run.reader, hstore]

/-- **Sealing is final.**  After any operations on a new run, also those that fail: the status only
goes its way; once the store takes no more values nothing that was measured changes, the samples not
until they are given up, and nothing more is written; the run has failed exactly when it lost its
store or a failure was handed to the end of writing, which answers that failure; and sealing once
more without one changes nothing. -/
theorem sealing_is_final (hfresh : s.Fresh) (h : s.Leads t) :
    (∀ u, t.Leads u → t.run.status.Becomes u.run.status) ∧
    (t.run.isFinalized → Final t) ∧
    (t.run.status = .failed ↔ t.run.store = .lost ∨ HandedFailure s t) ∧
    (∀ f, answer (finalize (some f)) t = .error (.failure f) ∨
      ∃ e, answer abort t = .error e ∧ answer (finalize (some f)) t = .error e) ∧
    (s.Steady → ∀ f, answer (finalize (some f)) t = .error (.failure f)) ∧
    ∀ reader, t.run.store = .sealed reader →
      answer (finalize none) t = .ok () ∧ after (finalize none) t = t := by
  refine ⟨fun u hu => becomes_of_alters hu.alters, final_of_finalized, failed_iff hfresh h,
    fun f => answer_finalize f t, fun hsteady f => ?_,
    fun reader => finalize_of_sealed (sound_of_alters h.alters (sound_of_fresh hfresh))⟩
  obtain ⟨current, horderly⟩ := h.orderly (hfresh.orderly hsteady)
  have habort := (yields_iff.1 (orderly_abort horderly)).1
  rcases answer_finalize f t with hanswer | ⟨e, hbreaks, -⟩
  · exact hanswer
  · rw [habort] at hbreaks
    cases hbreaks

/-- A run is sealed while an iteration is open, and then it is failed: that changes its status and
nothing else. -/
theorem sealing_is_final_threeCollectors :
    threeCollectors.Fresh ∧ threeCollectors.Steady ∧ ∃ t, threeCollectors.Leads t ∧
      t.run.isFinalized = true ∧ t.run.status = .complete ∧ t.run.executions = 1 ∧ Final t ∧
      answer (finalize (some .cancelled)) t = .error (.failure .cancelled) ∧
      HandedFailure threeCollectors (after (finalize (some .cancelled)) t) := by
  have hleads := (Leads.perform threeCollectors.work ⟨0, []⟩ .prepare .refl :
    threeCollectors.Leads _).foldl ⟨0, []⟩ [.start, .stop, .start, .finalize none]
  rw [after_prepare, order_threeCollectors] at hleads
  generalize ht : List.foldl _ _ _ = t at hleads
  have hseen : t.run.isFinalized = true ∧ t.run.status = .complete ∧ t.run.executions = 1 ∧
      (after (finalize (some .cancelled)) t).run.status = .failed ∧
      (after (finalize (some .cancelled)) t).run.reader.isOk = true := by
    rw [← ht]
    decide +kernel
  obtain ⟨hfinalized, hstatus, hexecutions, hfailed, hsealed⟩ := hseen
  obtain ⟨-, hfinal, -, -, hanswer, -⟩ := sealing_is_final fresh_threeCollectors hleads
  obtain ⟨-, -, hiff, -⟩ := sealing_is_final fresh_threeCollectors
    (.perform t.work ⟨0, []⟩ (.finalize (some .cancelled)) hleads)
  refine ⟨fresh_threeCollectors, steady_threeCollectors, t, hleads, hfinalized, hstatus,
    hexecutions, hfinal hfinalized, hanswer steady_threeCollectors .cancelled, ?_⟩
  rcases hiff.1 hfailed with hlost | hhanded
  · change (after (finalize (some .cancelled)) t).run.store = .lost at hlost
    rw [Run.reader, hlost] at hsealed
    cases hsealed
  · exact hhanded

end Run

end Gauge
