import Gauge.Proofs.Run.Cues
import Gauge.Proofs.Run.Schedule

/-!
# What a run performs

The iterations of a run, with those that are not measured or without, perform its cues; then the run
is concluded.  How many measured iterations there are depends on the samples that the cues measure.

## Main definitions

* `Session.prepared` — a session whose start order is settled.
* `Run.EndsAs` — a step ends as another one, but has given an open iteration up.
* `Run.loop` — the iterations of a run, with those that are not measured or without.
* `Run.conclude` — what follows the iterations of a run.

## Main statements

* `Session.flatMap_beats_cues` — the cues of a run make the calls of its schedule.
* `Run.loop_endsAs` — the iterations of a run perform their cues.
* `Run.conclude_eq` — a run performs its cues and concludes.
-/

namespace Gauge

open Cue

/-! ## Cues and calls -/

namespace Session

variable {κ : Type}

/-- A session whose start order is settled. -/
def prepared (s : Session κ) : Session κ :=
  { s with run := { s.run with order := some (startOrder s.run.collectors) } }

/-- A session whose run is marked where it has stopped early. -/
def marked (s : Session κ) (stopped : Bool) : Session κ :=
  { s with run := { s.run with earlyStopped := s.run.earlyStopped || stopped } }

theorem marked_false (s : Session κ) : s.marked false = s := by
  rw [marked, Bool.or_false]

theorem marked_true (s : Session κ) :
    s.marked true = { s with run := { s.run with earlyStopped := true } } := by
  rw [marked, Bool.or_true]

theorem flatMap_beats_bodyCues (s : Session κ) (first : Bool) (n : Nat) :
    (bodyCues first n).flatMap (beats s) = List.replicate n (.hook .body) := by
  induction n generalizing first with
  | zero => rfl
  | succ n ih =>
    have hbody : beats s (.hook .body) = [.hook .body] := rfl
    have hcheckpoint : beats s checkpoint = [] := rfl
    cases first <;> simp [bodyCues, List.replicate_succ, hbody, hcheckpoint, ih]

theorem flatMap_flatten_replicate {α β : Type} (f : α → List β) (n : Nat) (xs : List α) :
    (List.replicate n xs).flatten.flatMap f = (List.replicate n (xs.flatMap f)).flatten := by
  induction n with
  | zero => rfl
  | succ n ih => simp only [List.replicate_succ, List.flatten_cons, List.flatMap_append, ih]

/-- The calls of a number of measured iterations, with those before them or without. -/
def loopBeats (s : Session κ) (warm : Bool) (n : Nat) : List Beat :=
  (if warm then s.warmupBeats else []) ++ s.measuredBeats n

/-- More iterations make more calls behind the same ones. -/
theorem loopBeats_prefix (s : Session κ) (warm : Bool) {m n : Nat} (h : m ≤ n) :
    s.loopBeats warm m <+: s.loopBeats warm n := by
  obtain ⟨k, rfl⟩ := Nat.exists_eq_add_of_le h
  rw [loopBeats, loopBeats, measuredBeats, measuredBeats, List.replicate_add, List.flatten_append,
    ← List.append_assoc]
  exact List.prefix_append _ _

/-- The cues of iterations make the calls of these. -/
theorem flatMap_beats_loopCues (s : Session κ) (warm : Bool) (n : Nat) :
    (s.loopCues warm n).flatMap (beats s) = s.loopBeats warm n := by
  have hwarmup : s.warmupCues.flatMap (beats s) = s.warmupRound := by
    simp [warmupCues, warmupRound, bodies, flatMap_beats_bodyCues, beats]
  have hmeasured : s.measuredCues.flatMap (beats s) = s.measuredRound := by
    simp [measuredCues, measuredRound, bodies, flatMap_beats_bodyCues, beats]
  rw [loopCues, loopBeats, List.flatMap_append, measuredPart, measuredBeats,
    flatMap_flatten_replicate, hmeasured]
  cases warm with
  | true =>
    rw [leadCues, if_pos rfl, if_pos rfl, warmupPart, warmupBeats, flatMap_flatten_replicate,
      hwarmup]
  | false => rfl

/-- The cues of a run make the calls of its schedule. -/
theorem flatMap_beats_cues (s : Session κ) (n : Nat) :
    (s.cues n).flatMap (beats s) = s.schedule n :=
  s.flatMap_beats_loopCues true n

end Session

/-! ## Parts of a run -/

namespace Run

open Session Step

variable {κ : Type} [Device κ] {s₀ s t : Session κ} {token : Token} {l : Ledger}

omit [Device κ] in
theorem bind_congr_onwards {α β : Type} {x : Step κ α} {f g : α → Step κ β} (hx : Onwards x)
    (hfg : ∀ a t, s.Onward t → f a t = g a t) : (x >>= f) s = (x >>= g) s :=
  bind_congr_at rfl fun a t hxt => hfg a t ((hx s).of_ok hxt)

theorem repeatBody_eq (token : Token) (first : Bool) (n : Nat) :
    (repeatBody token first n : Step κ Unit) = performEach token (bodyCues first n) := by
  induction n generalizing first with
  | zero => rfl
  | succ n ih =>
    have hrest : (do callHook token .body; repeatBody token false n : Step κ Unit) =
        performEach token (.hook .body :: bodyCues false n) := by
      rw [ih]
      rfl
    cases first with
    | true => exact hrest
    | false => exact congrArg (inWorld (World.checkpoint token) >>= fun _ => ·) hrest

theorem runBody_eq (token : Token) (h : s.run.config = s₀.run.config) :
    runBody token s = performEach token (bodyCues true s₀.run.config.repetitions) s := by
  rw [← repeatBody_eq, ← h]
  rfl

/-- Iterations that are not measured perform their cues. -/
theorem warmupFor_eq (h : s.run.config = s₀.run.config) (n : Nat) :
    warmupFor token n s = performEach token (List.replicate n s₀.warmupCues).flatten s := by
  induction n generalizing s with
  | zero => rfl
  | succ n ih =>
    rw [warmupFor, List.replicate_succ, List.flatten_cons, warmupCues, List.cons_append,
      List.cons_append, List.append_assoc]
    refine bind_congr_onwards (onwards_checkpoint token) fun _ t ht => ?_
    refine bind_congr_onwards (onwards_callHook token .before) fun _ u hu => ?_
    have hu' : u.run.config = s₀.run.config := hu.config.trans (ht.config.trans h)
    have hbody := runBody_eq token hu'
    refine Eq.trans ?_ (congrFun (performEach_append token _ _).symm u)
    refine bind_congr_at hbody fun _ v hv => ?_
    have hv' : v.run.config = u.run.config :=
      ((onwards_runBody token u).of_ok (hbody.trans hv)).config
    exact bind_congr_onwards (onwards_callHook token .after) fun _ w hw =>
      ih (hw.config.trans (hv'.trans hu'))

/-! ### An open iteration is given up -/

/-- A step ends as another one, except that after a failure an open iteration has been given up. -/
def EndsAs (x y : Step κ Unit) (s : Session κ) : Prop :=
  match y s with
  | .ok _ t => x s = .ok () t
  | .error e t => ∃ u, x s = .error e u ∧ abort t = .ok () u

theorem abort_of_closed (h : s.run.collecting = false) : abort s = .ok () s := by
  have habort : abort s = (if s.run.collecting then stopCollectors else pure () : Step κ Unit) s :=
    rfl
  rw [habort, h]
  rfl

theorem endsAs_of_closed {x : Step κ Unit}
    (h : ∀ e t, x s = .error e t → t.run.collecting = false) : EndsAs x x s := by
  rw [EndsAs]
  cases hx : x s with
  | ok a t => rfl
  | error e t => exact ⟨t, rfl, abort_of_closed (h e t hx)⟩

theorem EndsAs.bind {x y f g : Step κ Unit} (h : EndsAs x y s)
    (hfg : ∀ t, y s = .ok () t → EndsAs f g t) :
    EndsAs (x >>= fun _ => f) (y >>= fun _ => g) s := by
  rw [EndsAs] at h
  cases hy : y s with
  | ok _ t =>
    rw [hy] at h
    rw [EndsAs, bind_of_ok hy, bind_of_ok h]
    exact hfg t hy
  | error e t =>
    rw [hy] at h
    obtain ⟨u, hx, hu⟩ := h
    rw [EndsAs, bind_of_error hy, bind_of_error hx]
    exact ⟨u, rfl, hu⟩

/-- A cue outside the bracket, and one that opens it. -/
theorem endsAs_perform (token : Token) (cue : Cue) {after : Bool} (h : Tracks s₀ l false s)
    (hfits : cue.bracket false = some after) :
    EndsAs (cue.perform token) (cue.perform token) s :=
  endsAs_of_closed fun _ _ he => (((performed h hfits).of_error he).error _ rfl).1.collecting

/-- Where the first steps do the same. -/
theorem EndsAs.congr {x x' y : Step κ Unit} (h : EndsAs x' y s) (hx : x s = x' s) :
    EndsAs x y s := by
  rw [EndsAs] at h ⊢
  rwa [hx]

theorem tracks_of_perform {cue : Cue} {collecting after : Bool} (h : Tracks s₀ l collecting s)
    (hfits : cue.bracket collecting = some after) (hcue : cue.perform token s = .ok () t) :
    Tracks s₀ (cue.enter s l) after t :=
  ((performed h hfits).of_ok hcue).ok () rfl

/-- A stop calls the collectors, and then writes their values. -/
theorem stop_eq (h : Tracks s₀ l true s) (token : Token) :
    Run.stop s = (do stopCollectors; Cue.write.perform token) s := by
  obtain ⟨w, hstore, -⟩ := h.store
  have hkept : Yields stopCollectors s fun _ t => t.run.store = s.run.store := by
    simp only [stopCollectors, yields_bind, yields_theRun]
    refine (frame_callCollectors .stop _ s).mono ?_
    intro r t ht
    have hstore : t.run.store = s.run.store := by rw [ht]
    cases r <;> exact hstore
  have hrun (s : Session κ) : (theRun : Step κ (Run κ)) s = .ok s.run s := rfl
  rw [Run.stop, bind_of_ok (hrun s), hstore, h.collecting]
  refine bind_congr_at rfl fun _ t ht => ?_
  rw [Cue.perform, bind_of_ok (hrun t), (hkept.of_ok ht).trans hstore]

theorem performEach_singleton (token : Token) (cue : Cue) :
    (performEach token [cue] : Step κ Unit) = cue.perform token :=
  bind_pure_unit

/-- The end of an iteration whose body has not failed. -/
theorem closing_endsAs (token : Token) (h : Tracks s₀ l true s) :
    EndsAs (do Run.stop; callHook token .after) (performEach token [.stop, write, .hook .after])
      s := by
  have hcues : (performEach token [.stop, write, .hook .after] : Step κ Unit) =
      (do stopCollectors; Cue.write.perform token) >>= fun _ =>
        performEach token [.hook .after] := (bind_assoc _ _ _).symm
  rw [hcues, performEach_singleton]
  have hstop := stop_eq h token
  have hanswers : EndsAs Run.stop (do stopCollectors; Cue.write.perform token) s := by
    refine (endsAs_of_closed fun e t ht => ?_).congr hstop
    obtain ⟨sample, hcalled⟩ := (called_stop h).of_error (hstop.trans ht)
    cases hcalled.answer
  refine hanswers.bind fun t ht => ?_
  obtain ⟨sample, hcalled⟩ := (called_stop h).of_ok (hstop.trans ht)
  exact endsAs_perform token (.hook .after) hcalled.tracks rfl

/-- The body and the end of an iteration: where the body fails, the iteration is given up. -/
theorem settledBody_endsAs (h : Tracks s₀ l true s) : EndsAs (do
      match ← settle (runBody token) with
      | .error failure => do
        abort
        fail failure
      | .ok () => do
        Run.stop
        callHook token .after)
      (performEach token
        (bodyCues true s₀.run.config.repetitions ++ [.stop, write, .hook .after])) s := by
  have hbody := runBody_eq token h.onward.config
  have hleft := performedEach token h
    (bracketAll_bodyCues true true s₀.run.config.repetitions)
  rw [performEach_append]
  cases hcues : performEach token (bodyCues true s₀.run.config.repetitions) s with
  | ok _ t =>
    have hclosing := closing_endsAs token (((hleft.of_ok hcues).ok () rfl).1)
    rw [EndsAs, bind_of_ok hcues, bind_of_ok (settle_of_ok (hbody.trans hcues))]
    exact hclosing
  | error e t =>
    obtain ⟨f, done, cue, rest, rfl, -, -, ⟨now, htracks⟩, -⟩ := (hleft.of_error hcues).error e rfl
    rw [EndsAs, bind_of_error hcues, bind_of_ok (settle_of_failure (hbody.trans hcues))]
    cases habort : abort t with
    | ok _ u => exact ⟨u, bind_of_ok habort _, habort⟩
    | error e u =>
      have hcalled := (called_abort_any htracks).of_error habort
      cases hcalled.answer

/-- A checkpoint and a measured iteration perform their cues; an iteration whose body fails is given
up. -/
theorem checkedIterate_endsAs (h : Tracks s₀ l false s) :
    EndsAs (do inWorld (World.checkpoint token); iterate token)
      (performEach token s₀.measuredCues) s := by
  refine (endsAs_perform token .checkpoint h rfl).bind fun t ht => ?_
  have hchecked := tracks_of_perform h rfl ht
  refine (endsAs_perform token (.hook .before) hchecked rfl).bind fun u hu => ?_
  have hopened := tracks_of_perform hchecked rfl hu
  refine (EndsAs.bind (endsAs_perform token .start hopened rfl) fun v hv =>
    settledBody_endsAs (tracks_of_perform hopened rfl hv)).congr ?_
  rfl

/-! ### The measured iterations -/

omit [Device κ] in
/-- Marks a run that has stopped early. -/
def markEarly (stopped : Bool) : Step κ Unit := modify fun s => s.marked stopped

omit [Device κ] in
theorem markEarly_false : (markEarly false : Step κ Unit) = pure () := by
  funext s
  exact congrArg (EStateM.Result.ok ()) s.marked_false

omit [Device κ] in
theorem markEarly_true :
    (markEarly true : Step κ Unit) = modifyRun fun r => { r with earlyStopped := true } := by
  funext s
  exact congrArg (EStateM.Result.ok ()) s.marked_true

/-- A measured iteration before others. -/
theorem measuredPart_succ_endsAs {x : Step κ Unit} {m : Nat} {stopped : Bool}
    (h : Tracks s₀ l false s) (hrest : ∀ t, performEach token s₀.measuredCues s = .ok () t →
      EndsAs x (do performEach token (s₀.measuredPart m); markEarly stopped) t) :
    EndsAs ((do inWorld (World.checkpoint token); iterate token) >>= fun _ => x)
      (do performEach token (s₀.measuredPart (m + 1)); markEarly stopped) s := by
  have hcues : (do performEach token (s₀.measuredPart (m + 1)); markEarly stopped : Step κ Unit) =
      performEach token s₀.measuredCues >>= fun _ =>
        (do performEach token (s₀.measuredPart m); markEarly stopped : Step κ Unit) := by
    rw [measuredPart_succ, performEach_append]
    exact bind_assoc _ _ _
  rw [hcues]
  exact (checkedIterate_endsAs h).bind hrest

/-- A look at the spread before more iterations. -/
theorem unlessConverged_endsAs {x y : Step κ Unit} {collecting : Bool}
    (h : Tracks s₀ l collecting s)
    (hends : EndsAs (if s₀.run.config.stopsAfter l.samples then
      modifyRun fun r => { r with earlyStopped := true } else x) y s) :
    EndsAs (do
      if (← theRun).converged l.samples.length then
        modifyRun fun r => { r with earlyStopped := true }
      else x) y s := by
  refine hends.congr ?_
  rw [← converged_eq h]
  rfl

/-- **The measured iterations perform their cues**: as many as the rule for stopping early allows,
going by the samples that these cues measure. -/
theorem measureFrom_endsAs (token : Token) (n : Nat) (h : Tracks s₀ l false s) :
    ∃ m l', l' = ledger token l (s₀.measuredPart m) s ∧
      m = s₀.run.config.allowedFrom l'.samples l.samples.length n ∧
      EndsAs (measureFrom token (l.samples.length + 1) n) (do
        performEach token (s₀.measuredPart m)
        markEarly (s₀.run.config.stopsFrom l'.samples l.samples.length n)) s := by
  induction n generalizing l s with
  | zero =>
    refine ⟨0, l, rfl, rfl, ?_⟩
    rw [Configuration.stopsFrom, List.range'_zero, List.any_nil, markEarly_false]
    exact rfl
  | succ n ih =>
    rw [measureFrom, ← bind_assoc]
    cases hcues : performEach token s₀.measuredCues s with
    | error e t =>
      obtain ⟨m, hm⟩ := s₀.run.config.exists_allowedFrom_succ
        (ledger token l s₀.measuredCues s).samples l.samples.length n
      refine ⟨m + 1, ledger token l s₀.measuredCues s, ?_, hm.symm, ?_⟩
      · rw [measuredPart_succ, ledger_append_of_error _ hcues]
      · exact measuredPart_succ_endsAs h fun u hu => by simp [hcues] at hu
    | ok _ t =>
      have htracks := (((performedEach token h s₀.bracketAll_measuredCues).of_ok hcues).ok () rfl).1
      have hlength := length_ledger_of_ok (l := l) hcues
      have hledger (m : Nat) : ledger token l (s₀.measuredPart (m + 1)) s =
          ledger token (ledger token l s₀.measuredCues s) (s₀.measuredPart m) t := by
        rw [measuredPart_succ, ledger_append_of_ok _ hcues]
      generalize ledger token l s₀.measuredCues s = l₁ at htracks hlength hledger
      rw [count_write_measuredCues] at hlength
      -- the samples so far are the first ones in the end, so the rule says the same of both
      have htake {l' : Ledger} (hbegin : l₁.samples <+: l'.samples) :
          l'.samples.take (l.samples.length + 1) = l₁.samples := by
        rw [← hlength]
        exact (List.prefix_iff_eq_take.1 hbegin).symm
      rw [← hlength]
      cases hstops : s₀.run.config.stopsAfter l₁.samples with
      | true =>
        refine ⟨1, l₁, (hledger 0).symm, ?_, measuredPart_succ_endsAs h fun u hu => ?_⟩
        · rw [Configuration.allowedFrom, htake List.prefix_rfl, if_pos hstops]
        · cases hcues.symm.trans hu
          refine unlessConverged_endsAs htracks ?_
          rw [if_pos hstops, Configuration.stopsFrom_succ, htake List.prefix_rfl, hstops,
            Bool.true_or, markEarly_true]
          exact rfl
      | false =>
        obtain ⟨m, l', hl', hm, hends⟩ := ih htracks
        have htaken := htake (hl' ▸ samples_prefix_ledger token l₁ (s₀.measuredPart m) t)
        refine ⟨m + 1, l', hl'.trans (hledger m).symm, ?_,
          measuredPart_succ_endsAs h fun u hu => ?_⟩
        · rw [Configuration.allowedFrom, htaken, hstops, hm, hlength]
          rfl
        · cases hcues.symm.trans hu
          refine unlessConverged_endsAs htracks ?_
          rw [hstops, Configuration.stopsFrom_succ, htaken, hstops, Bool.false_or, ← hlength]
          exact hends

/-- Cues outside of the bracket. -/
theorem endsAs_performEach (token : Token) {cues : List Cue} (h : Tracks s₀ l false s)
    (hcues : ∀ cue ∈ cues, cue.bracket false = some false) :
    EndsAs (performEach token cues) (performEach token cues) s := by
  induction cues generalizing s l with
  | nil => exact rfl
  | cons cue cues ih =>
    have hfits := hcues cue List.mem_cons_self
    refine (endsAs_perform token cue h hfits).bind fun t ht => ?_
    exact ih (tracks_of_perform h hfits ht) fun other hother =>
      hcues other (List.mem_cons_of_mem _ hother)

/-! ## Before the store is sealed -/

/-- The iterations that are not measured, or none. -/
def lead (warm : Bool) (token : Token) : Step κ Unit := if warm then warmup token else pure ()

/-- The iterations of a run, with those that are not measured or without. -/
def loop (warm : Bool) (token : Token) : Step κ Unit := do
  lead warm token
  measure token

/-- The iterations that are not measured perform their cues. -/
theorem lead_eq (warm : Bool) (token : Token) (h : s.run.config = s₀.run.config) :
    lead warm token s = performEach token (s₀.leadCues warm) s := by
  cases warm with
  | true =>
    have hwarmup : warmup token s = warmupFor token s₀.run.config.warmup s := by
      rw [← h]
      rfl
    exact hwarmup.trans (warmupFor_eq h s₀.run.config.warmup)
  | false => rfl

/-- **The iterations of a run perform their cues**; the measured ones are as many as the rule for
stopping early allows, going by the samples that the cues measure. -/
theorem loop_endsAs (warm : Bool) (token : Token) (h : Tracks s₀ {} false s) :
    ∃ n l, l = ledger token {} (s₀.loopCues warm n) s ∧ n = s₀.run.config.allowed l.samples ∧
      EndsAs (loop warm token) (do
        performEach token (s₀.loopCues warm n)
        markEarly (s₀.run.config.stopsFrom l.samples 0 s₀.run.config.executions)) s := by
  have hcues (n : Nat) (stopped : Bool) :
      (do performEach token (s₀.loopCues warm n); markEarly stopped : Step κ Unit) =
        performEach token (s₀.leadCues warm) >>= fun _ =>
          (do performEach token (s₀.measuredPart n); markEarly stopped : Step κ Unit) := by
    rw [loopCues, performEach_append]
    exact bind_assoc _ _ _
  have hlead : EndsAs (lead warm token) (performEach token (s₀.leadCues warm)) s :=
    (endsAs_performEach token h (s₀.bracket_of_mem_leadCues warm)).congr
      (lead_eq warm token h.onward.config)
  cases hperform : performEach token (s₀.leadCues warm) s with
  | error e t =>
    refine ⟨_, ledger token {} (s₀.leadCues warm) s, ?_, rfl, ?_⟩
    · rw [loopCues, ledger_append_of_error _ hperform]
    · rw [hcues]
      refine hlead.bind fun u hu => ?_
      rw [hperform] at hu
      cases hu
  | ok _ t =>
    have hleft := (performedEach token h (s₀.bracketAll_leadCues warm)).of_ok hperform
    have htracks := (hleft.ok () rfl).1
    have hlength := length_ledger_of_ok (l := {}) hperform
    rw [count_write_leadCues] at hlength
    have hempty : (ledger token {} (s₀.leadCues warm) s).samples.length = 0 := hlength
    obtain ⟨n, l, hl, hn, hmeasure⟩ := measureFrom_endsAs token s₀.run.config.executions htracks
    rw [hempty] at hn hmeasure
    refine ⟨n, l, ?_, hn.trans (s₀.run.config.allowedFrom_zero l.samples), ?_⟩
    · rw [hl, loopCues, ledger_append_of_ok _ hperform]
    · rw [hcues]
      refine hlead.bind fun u hu => ?_
      cases hperform.symm.trans hu
      refine hmeasure.congr ?_
      rw [← htracks.onward.config]
      rfl

/-! ## Whole runs -/

/-- What follows the iterations: the rest of the run if none has failed, and otherwise the end of
writing. -/
def conclude (rest : Step κ Unit) : Except Failure Unit → Step κ Unit
  | .ok () => rest
  | .error f => finalize (some f)

/-- To give an iteration up before sealing makes no difference. -/
theorem finalize_of_abort (h : abort s = .ok () t) (failure : Option Failure) :
    finalize failure t = finalize failure s := by
  have hclosed : t.run.collecting = false := by
    cases hs : s.run.collecting with
    | false =>
      rw [abort_of_closed hs] at h
      cases h
      exact hs
    | true =>
      have hyields : Yields (abort : Step κ Unit) s fun r t =>
          r = .ok () → t.run.collecting = false := by
        simp only [abort, yields_bind, yields_theRun, hs, if_true, stopCollectors]
        refine Yields.mono (P := fun _ _ => True) ?_ fun r t _ => ?_
        · rw [Yields]
          split <;> trivial
        · cases r with
          | ok _ => exact fun _ => rfl
          | error e => exact fun he => by cases he
      exact hyields.of_ok h rfl
  exact bind_congr_at ((abort_of_closed hclosed).trans h.symm) fun _ _ _ => rfl

/-- What ends with a failure does not answer. -/
theorem finalize_ne_ok (f : Failure) (s t : Session κ) (a : Unit) :
    finalize (some f) s ≠ .ok a t := by
  have hyields : Yields (finalize (some f) : Step κ Unit) s fun r _ => r ≠ .ok a := by
    simp only [finalize, yields_bind]
    refine (yields_true _ _).mono fun r u _ => ?_
    cases r with
    | error e => exact fun he => by cases he
    | ok _ =>
      simp only [yields_theRun]
      cases u.run.store.toReader with
      | ok reader => exact fun he => by cases he
      | error fault => exact fun he => by cases he
  intro hok
  exact hyields.of_ok hok rfl

theorem bind_finalize (f : Failure) (rest : Step κ Unit) :
    (do finalize (some f); rest : Step κ Unit) = finalize (some f) := by
  funext s
  cases hend : finalize (some f) s with
  | ok a t => exact absurd hend (finalize_ne_ok f s t a)
  | error e t => exact bind_of_error hend _

/-- Where iterations fail, the end of writing gets their failure, whether they were measured or
not. -/
theorem conclude_loop (warm : Bool) (token : Token) (rest : Step κ Unit) (s : Session κ) :
    (do
      match ← settle (lead warm token) with
      | .error f => finalize (some f)
      | .ok () => do
        mainLoop token
        rest) s = (settle (loop warm token) >>= conclude rest) s := by
  have hloop : (loop warm token : Step κ Unit) = lead warm token >>= fun _ => measure token := rfl
  rw [hloop]
  cases hlead : lead warm token s with
  | error e t =>
    have herror := bind_of_error hlead fun _ => measure token
    rcases e.failure_or with ⟨f, rfl⟩ | hbreak
    · rw [bind_of_ok (settle_of_failure hlead), bind_of_ok (settle_of_failure herror)]
      rfl
    · rw [bind_of_error (settle_of_break hbreak hlead),
        bind_of_error (settle_of_break hbreak herror)]
  | ok _ t =>
    rw [bind_of_ok (settle_of_ok hlead),
      bind_congr_at (settle_congr (bind_of_ok hlead fun _ => measure token)) fun _ _ _ => rfl]
    have hmain : (do mainLoop token; rest : Step κ Unit) =
        settle (measure token) >>= fun r => conclude rest r := by
      rw [mainLoop]
      refine (bind_assoc _ _ _).trans (congrArg (settle (measure token) >>= ·) ?_)
      funext r
      cases r with
      | ok _ => rfl
      | error f => exact bind_finalize f rest
    exact congrFun hmain t

/-- Steps that end as others are concluded as these. -/
theorem EndsAs.conclude {x y : Step κ Unit} (h : EndsAs x y s)
    (hfails : ∀ e t, y s = .error e t → ∃ f, e = .failure f) (rest : Step κ Unit) :
    (settle x >>= Run.conclude rest) s = (settle y >>= Run.conclude rest) s := by
  rw [EndsAs] at h
  cases hy : y s with
  | ok _ t =>
    rw [hy] at h
    rw [bind_of_ok (settle_of_ok h), bind_of_ok (settle_of_ok hy)]
  | error e t =>
    obtain ⟨f, rfl⟩ := hfails e t hy
    rw [hy] at h
    obtain ⟨u, hx, habort⟩ := h
    rw [bind_of_ok (settle_of_failure hx), bind_of_ok (settle_of_failure hy)]
    exact finalize_of_abort habort (some f)

/-- **A run performs its cues and concludes.**  The measured iterations are as many as the rule for
stopping early allows, going by the samples that the cues measure. -/
theorem conclude_eq (warm : Bool) (token : Token) (rest : Step κ Unit)
    (h : Tracks s₀ {} false s) :
    ∃ n l, l = ledger token {} (s₀.loopCues warm n) s ∧ n = s₀.run.config.allowed l.samples ∧
      EndsAs (loop warm token) (do
        performEach token (s₀.loopCues warm n)
        markEarly (s₀.run.config.stopsFrom l.samples 0 s₀.run.config.executions)) s ∧
      (settle (loop warm token) >>= conclude rest) s =
        (settle (do
          performEach token (s₀.loopCues warm n)
          markEarly (s₀.run.config.stopsFrom l.samples 0 s₀.run.config.executions)) >>=
            conclude rest) s := by
  obtain ⟨n, l, hl, hn, hends⟩ := loop_endsAs warm token h
  refine ⟨n, l, hl, hn, hends, hends.conclude (fun e t he => ?_) rest⟩
  cases hcues : performEach token (s₀.loopCues warm n) s with
  | ok _ u =>
    rw [bind_of_ok hcues] at he
    cases he
  | error e' u =>
    rw [bind_of_error hcues] at he
    cases he
    obtain ⟨f, -, -, -, hf, -⟩ :=
      ((performedEach token h (s₀.bracketAll_loopCues warm n)).of_error hcues).error _ rfl
    exact ⟨f, hf⟩

end Run

end Gauge
