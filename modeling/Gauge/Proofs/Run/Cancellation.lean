import Gauge.Proofs.Run.Outcome
import Gauge.Proofs.Run.Spared

/-!
# How soon a cancelled run ends

There is a checkpoint before every iteration and between two calls of the body.  So once a token is
cancelled, the run calls every hook at most once more and writes at most one more sample; and it
answers that it was cancelled, unless a call of a hook fails before the next checkpoint, or there is
no checkpoint any more.

## Main definitions

* `Cue.Before` — one cue before another one in an iteration, or before a checkpoint.
* `World.called` — how often a hook was called.
* `Cue.Stuck` — no further checkpoint is passed.

## Main statements

* `Session.isChain_cues` — between two checkpoints no cue is repeated.
* `Cue.yields_once` — what is called and written without a further checkpoint.
* `Cue.yields_cancelled` — what a cancelled session makes of its cues.
* `Run.execute_ends_soon` — a whole run.
-/

namespace Gauge

open Cue

/-! ## Cues between two checkpoints -/

namespace Cue

/-- The place of a cue between two checkpoints. -/
def rank : Cue → Nat
  | checkpoint => 0
  | hook .before => 1
  | start => 2
  | hook .body => 3
  | stop => 4
  | write => 5
  | hook .after => 6

/-- One cue before another one: the places ascend up to the next checkpoint. -/
def Before (c d : Cue) : Prop := d = checkpoint ∨ c.rank < d.rank

/-- Cues that ascend are not repeated before the next checkpoint; the first one may be a checkpoint
itself. -/
theorem nodup_of_isChain {cues : List Cue} (h : cues.IsChain Before)
    (hcues : checkpoint ∉ cues.tail) : cues.Nodup := by
  let Ascends (c d : Cue) : Prop := c.rank < d.rank
  have htrans : Trans Ascends Ascends Ascends := ⟨fun h h' => Nat.lt_trans h h'⟩
  have hascends : cues.IsChain Ascends := h.imp_of_mem_tail_imp fun _ d _ hd hbefore =>
    hbefore.resolve_left fun heq => hcues (heq ▸ hd)
  exact hascends.pairwise.imp fun hlt heq => absurd (heq ▸ hlt) (lt_irrefl _)

end Cue

namespace Session

variable {κ : Type}

/-- The calls of the body stand between what comes before the body and what comes after it. -/
theorem isChain_bodyCues {c d : Cue} {rest : List Cue} (hd : (Cue.hook .body).rank < d.rank)
    (hrest : (d :: rest).IsChain Before) (first : Bool) (n : Nat)
    (hc : c.rank ≤ (Cue.hook .body).rank) (hfirst : first = true → c.rank < (Cue.hook .body).rank) :
    (c :: (bodyCues first n ++ d :: rest)).IsChain Before := by
  induction n generalizing c first with
  | zero => exact .cons_cons (.inr (hc.trans_lt hd)) hrest
  | succ n ih =>
    have hnext := ih (c := .hook .body) false le_rfl fun h => by cases h
    cases first with
    | true => exact .cons_cons (.inr (hfirst rfl)) hnext
    | false => exact .cons_cons (.inl rfl) (.cons_cons (.inr (by decide)) hnext)

theorem isChain_warmupCues (s : Session κ) : s.warmupCues.IsChain Before :=
  .cons_cons (.inr (by decide)) (isChain_bodyCues (by decide) (.singleton _) true _ (by decide)
    fun _ => by decide)

theorem isChain_measuredCues (s : Session κ) : s.measuredCues.IsChain Before := by
  have hend : [Cue.stop, write, .hook .after].IsChain Before :=
    .cons_cons (.inr (by decide)) (.cons_cons (.inr (by decide)) (.singleton _))
  exact .cons_cons (.inr (by decide)) (.cons_cons (.inr (by decide))
    (isChain_bodyCues (by decide) hend true _ (by decide) fun _ => by decide))

/-- Behind anything there can be a list that begins with a checkpoint. -/
theorem isChain_append {first second : List Cue} (hfirst : first.IsChain Before)
    (hsecond : second.IsChain Before) (hhead : ∀ c ∈ second.head?, c = checkpoint) :
    (first ++ second).IsChain Before :=
  hfirst.append hsecond fun _ _ c hc => .inl (hhead c hc)

theorem isChain_flatten_replicate {round : List Cue} (h : round.IsChain Before)
    (hhead : round.head? = some checkpoint) (n : Nat) :
    (List.replicate n round).flatten.IsChain Before ∧
      ∀ c ∈ (List.replicate n round).flatten.head?, c = checkpoint := by
  induction n with
  | zero => exact ⟨.nil, fun c hc => by cases hc⟩
  | succ n ih =>
    rw [List.replicate_succ, List.flatten_cons]
    refine ⟨isChain_append h ih.1 ih.2, fun c hc => ?_⟩
    rw [List.head?_append, hhead] at hc
    exact (Option.mem_some_iff.1 hc).symm

/-- Between two checkpoints of a run no cue is repeated. -/
theorem isChain_cues (s : Session κ) (n : Nat) : (s.cues n).IsChain Before :=
  isChain_append (isChain_flatten_replicate s.isChain_warmupCues rfl _).1
    (isChain_flatten_replicate s.isChain_measuredCues rfl n).1
    (isChain_flatten_replicate s.isChain_measuredCues rfl n).2

end Session

/-! ## Calls and samples -/

def World.called {κ : Type} (w : World (Event κ)) (stage : Stage) : Nat :=
  w.beats.count (.hook stage)

namespace Cue

open Session Step

variable {κ : Type}

/-- A cue of a hook is the only one that can call it. -/
theorem count_beats_le (s : Session κ) (stage : Stage) (cues : List Cue) :
    (cues.flatMap (beats s)).count (.hook stage) ≤ cues.count (.hook stage) := by
  induction cues with
  | nil => exact le_rfl
  | cons cue cues ih =>
    have hcue : (beats s cue).count (.hook stage) ≤ [cue].count (.hook stage) := by
      cases cue with
      | hook other =>
        by_cases hother : other = stage
        · subst hother
          by_cases hhook : (s.work.hook? other).isSome <;> simp [beats, Workload.beatOf, hhook]
        · have hnot : Beat.hook stage ∉ s.work.beatOf other := fun hmem =>
            hother (Workload.mem_beatOf hmem).symm
          exact (List.count_eq_zero_of_not_mem hnot).trans_le (Nat.zero_le _)
      | start => simp [beats, Run.starts, List.count_eq_zero]
      | stop => simp [beats, Run.stops, List.count_eq_zero]
      | _ => exact Nat.zero_le _
    rw [List.flatMap_cons, List.count_append, ← List.singleton_append, List.count_append]
    exact Nat.add_le_add hcue ih

/-! ## Cancelled sessions -/

variable [Device κ] {token : Token} {s₀ s t : Session κ} {l : Ledger} {collecting after : Bool}
  {cues : List Cue}

theorem onwards_perform (token : Token) (cue : Cue) :
    Onwards (cue.perform token : Step κ Unit) := by
  cases cue with
  | checkpoint => exact onwards_checkpoint token
  | hook stage => exact onwards_callHook token stage
  | start => exact onwards_theRun.bind fun r => Run.onwards_start r.mode
  | stop => exact Run.onwards_stopCollectors
  | write =>
    refine onwards_theRun.bind fun r => ?_
    cases r.store with
    | writing w => exact Run.onwards_writeSample w
    | sealed reader => exact onwards_fail _
    | lost => exact onwards_fail _

/-- A cancelled session does not get past a checkpoint. -/
theorem not_passed (h : s.world.tokens.isCancelled token) :
    perform token checkpoint s ≠ .ok () t := by
  have hfailed : Yields (perform token checkpoint) s fun r _ => r ≠ .ok () := by
    rw [perform, yields_inWorld, World.checkpoint, yields_bind]
    refine (World.yields_tick s.world).mono fun r w hw => ?_
    cases r with
    | error e => exact fun he => by cases he
    | ok _ =>
      rw [Yields, World.look_eq, if_pos (hw.1.cancelled token h)]
      exact fun he => by cases he
  exact fun hok => hfailed.of_ok hok rfl

/-- So there is no checkpoint among the cues that it performs. -/
theorem checkpoint_not_mem (hcancelled : s.world.tokens.isCancelled token)
    (h : performEach token cues s = .ok () t) : checkpoint ∉ cues := by
  induction cues generalizing s with
  | nil => exact List.not_mem_nil
  | cons cue cues ih =>
    cases hcue : cue.perform token s with
    | error e u =>
      rw [performEach_cons_of_error hcue] at h
      cases h
    | ok _ u =>
      rw [performEach_cons_of_ok hcue] at h
      have honward : s.Onward u := (onwards_perform token cue s).of_ok hcue
      rw [List.mem_cons, not_or]
      refine ⟨?_, ih (honward.world.cancelled token hcancelled) h⟩
      rintro rfl
      exact not_passed hcancelled hcue

theorem exists_of_performEach_append {first second : List Cue}
    (h : performEach token (first ++ second) s = .ok () t) :
    ∃ u, performEach token first s = .ok () u ∧ performEach token second u = .ok () t := by
  rw [performEach_append] at h
  cases hfirst : performEach token first s with
  | ok _ u =>
    rw [bind_of_ok hfirst] at h
    exact ⟨u, rfl, h⟩
  | error e u =>
    rw [bind_of_error hfirst] at h
    cases h

/-- Behind `first` and one more cue no checkpoint is passed. -/
def Stuck (token : Token) (s : Session κ) (first second : List Cue) : Prop :=
  ∀ done t, done <+: second → performEach token (first ++ done) s = .ok () t →
    checkpoint ∉ done.tail

/-- A session is stuck from where it is cancelled. -/
theorem stuck_of_cancelled {first : List Cue} (second : List Cue)
    (h : (Step.after (performEach token first) s).world.tokens.isCancelled token) :
    Stuck token s first second := by
  intro done t _ hdone hmem
  obtain ⟨u, hfirst, hdone⟩ := exists_of_performEach_append hdone
  rw [Step.after, hfirst] at h
  exact checkpoint_not_mem h hdone (List.mem_of_mem_tail hmem)

/-- It is stuck from the cue within which it is cancelled. -/
theorem stuck_of_cancelled_within {first : List Cue} {cue : Cue} (second : List Cue)
    (h : (Step.after (performEach token (first ++ [cue])) s).world.tokens.isCancelled token) :
    Stuck token s first (cue :: second) := by
  intro done t hprefix hdone
  cases done with
  | nil => exact List.not_mem_nil
  | cons c done =>
    obtain ⟨rfl, -⟩ := List.cons_prefix_cons.1 hprefix
    rw [List.append_cons] at hdone
    obtain ⟨u, hmade, hdone⟩ := exists_of_performEach_append hdone
    rw [Step.after, hmade] at h
    exact checkpoint_not_mem h hdone

/-- **A session that passes no checkpoint** calls every hook at most once and writes at most one
sample. -/
theorem yields_once (h : Tracks s₀ l collecting s) (hfits : bracketAll collecting cues = some after)
    (hchain : cues.IsChain Before) (hstuck : Stuck token s [] cues) :
    Yields (performEach token cues) s fun _ t =>
      (∀ stage, t.world.called stage ≤ s.world.called stage + 1) ∧
      (ledger token l cues s).samples.length ≤ l.samples.length + 1 := by
  have hcalled {made : List Cue} {t : Session κ} (hmade : made.IsChain Before)
      (hnone : checkpoint ∉ made.tail)
      (hbeats : t.world.beats = s.world.beats ++ made.flatMap (beats s₀)) (stage : Stage) :
      t.world.called stage ≤ s.world.called stage + 1 := by
    rw [World.called, World.called, hbeats, List.count_append]
    exact Nat.add_le_add_left ((count_beats_le s₀ stage made).trans
      (List.nodup_iff_count_le_one.1 (nodup_of_isChain hmade hnone) _)) _
  have hwritten {made : List Cue} (hmade : made.IsChain Before) (hnone : checkpoint ∉ made.tail) :
      l.samples.length + made.count write ≤ l.samples.length + 1 :=
    Nat.add_le_add_left (List.nodup_iff_count_le_one.1 (nodup_of_isChain hmade hnone) _) _
  have hleft := performedEach token h hfits
  cases hcues : performEach token cues s with
  | ok a t =>
    have hnone := hstuck cues t List.prefix_rfl hcues
    have hbeats := ((hleft.of_ok hcues).ok () rfl).2
    rw [Yields, hcues]
    exact ⟨hcalled hchain hnone hbeats,
      (length_ledger_of_ok hcues).trans_le (hwritten hchain hnone)⟩
  | error e t =>
    obtain ⟨f, done, cue, rest, rfl, rfl, hbreaks, -, hbeats⟩ :=
      (hleft.of_error hcues).error e rfl
    have hwhere := hbreaks.checkpoint_or_hook
    obtain ⟨u, hdone, hcue, -⟩ := hbreaks
    have hnone := hstuck done u (List.prefix_append _ _) hdone
    rw [List.append_cons] at hchain
    have hmade : (done ++ [cue]).IsChain Before := hchain.left_of_append
    rw [Yields, hcues, ledger_append_of_ok _ hdone, ledger_cons_of_error hcue,
      length_ledger_of_ok hdone]
    refine ⟨?_, hwritten hmade.left_of_append hnone⟩
    rcases hwhere with ⟨rfl, -⟩ | ⟨stage, rfl⟩
    · -- a checkpoint that fails calls nothing
      refine hcalled hmade.left_of_append hnone ?_
      rw [hbeats, List.flatMap_append]
      exact congrArg _ (List.append_nil _)
    · refine hcalled hmade (fun hmem => ?_) hbeats
      cases done with
      | nil => cases hmem
      | cons c done => exact hnone (by simpa using hmem)

/-- The same behind cues that are performed before. -/
theorem yields_once_after {first second : List Cue} (h : Tracks s₀ l collecting s)
    (hfits : bracketAll collecting (first ++ second) = some after)
    (hchain : (first ++ second).IsChain Before) (hstuck : Stuck token s first second) :
    Yields (performEach token (first ++ second)) s fun _ t =>
      (∀ stage, t.world.called stage ≤
        (Step.after (performEach token first) s).world.called stage + 1) ∧
      (ledger token l (first ++ second) s).samples.length ≤
        (Step.after (performEach token first) s).run.executions + 1 := by
  rw [bracketAll, List.foldlM_append] at hfits
  obtain ⟨now, hfirst, hsecond⟩ := Option.bind_eq_some_iff.1 hfits
  have hleft := performedEach token h hfirst
  cases hcues : performEach token first s with
  | ok _ u =>
    have htracks := ((hleft.of_ok hcues).ok () rfl).1
    have hrest : Stuck token u [] second := fun done t hprefix hdone =>
      hstuck done t hprefix (by rw [performEach_append, bind_of_ok hcues]; exact hdone)
    rw [Step.after, hcues, ledger_append_of_ok _ hcues, htracks.executions]
    refine (yields_once htracks hsecond hchain.right_of_append hrest).congr ?_
    rw [performEach_append, bind_of_ok hcues]
  | error e t =>
    obtain ⟨f, done, cue, rest, rfl, -, -, ⟨now, htracks⟩, -⟩ := (hleft.of_error hcues).error e rfl
    have hall : performEach token (first ++ second) s = .error (.failure f) t := by
      rw [performEach_append, bind_of_error hcues]
    rw [Yields, hall, Step.after, hcues, ledger_append_of_error _ hcues, htracks.executions]
    exact ⟨fun _ => Nat.le_succ _, Nat.le_succ _⟩

/-- **A cancelled session** performs all of its cues only if there is no checkpoint among them;
otherwise it answers that it was cancelled, or a call of a hook fails before the first checkpoint. -/
theorem yields_cancelled (h : Tracks s₀ l collecting s)
    (hfits : bracketAll collecting cues = some after)
    (hcancelled : s.world.tokens.isCancelled token) :
    Yields (performEach token cues) s fun r t =>
      (∃ a, r = .ok a) ∧ checkpoint ∉ cues ∨ r = .error (.failure .cancelled) ∨
        ∃ done stage rest f, cues = done ++ .hook stage :: rest ∧ checkpoint ∉ done ∧
          r = .error (.failure f) ∧ Breaks token s done (.hook stage) f t := by
  have hleft := performedEach token h hfits
  cases hcues : performEach token cues s with
  | ok a t =>
    rw [Yields, hcues]
    exact .inl ⟨⟨a, rfl⟩, checkpoint_not_mem hcancelled hcues⟩
  | error e t =>
    obtain ⟨f, done, cue, rest, rfl, hsplit, hbreaks, -⟩ := (hleft.of_error hcues).error e rfl
    have hnone : checkpoint ∉ done := by
      obtain ⟨u, hdone, -⟩ := hbreaks
      exact checkpoint_not_mem hcancelled hdone
    rw [Yields, hcues]
    rcases hbreaks.checkpoint_or_hook with ⟨-, rfl⟩ | ⟨stage, rfl⟩
    · exact .inr (.inl rfl)
    · exact .inr (.inr ⟨done, stage, rest, f, hsplit, hnone, rfl, hbreaks⟩)

/-- The same of cues whose first part is performed before the session is cancelled. -/
theorem yields_cancelled_after {first second : List Cue} (h : Tracks s₀ l collecting s)
    (hfits : bracketAll collecting (first ++ second) = some after)
    (hcancelled : (Step.after (performEach token first) s).world.tokens.isCancelled token) :
    Yields (performEach token (first ++ second)) s fun r t =>
      (∃ a, r = .ok a) ∧ checkpoint ∉ second ∨ r = .error (.failure .cancelled) ∨
        ∃ done stage rest f, first ++ second = done ++ .hook stage :: rest ∧
          checkpoint ∉ done.drop first.length ∧ r = .error (.failure f) ∧
          Breaks token s done (.hook stage) f t := by
  rw [bracketAll, List.foldlM_append] at hfits
  obtain ⟨now, hfirst, hsecond⟩ := Option.bind_eq_some_iff.1 hfits
  have hleft := performedEach token h hfirst
  cases hcues : performEach token first s with
  | ok _ u =>
    have hleft := hleft.of_ok hcues
    rw [Step.after, hcues] at hcancelled
    refine ((yields_cancelled (hleft.ok () rfl).1 hsecond hcancelled).congr ?_).mono ?_
    · rw [performEach_append, bind_of_ok hcues]
    · rintro r t hanswer
      refine hanswer.imp id (.imp id ?_)
      rintro ⟨done, stage, rest, f, rfl, hnone, rfl, v, hdone, hcue, hgrows, hfails⟩
      refine ⟨first ++ done, stage, rest, f, (List.append_assoc _ _ _).symm, ?_, rfl, v, ?_, hcue,
        hleft.work.trans hgrows, hfails⟩
      · rwa [List.drop_left]
      · rw [performEach_append, bind_of_ok hcues, hdone]
  | error e t =>
    obtain ⟨f, done, cue, rest, rfl, hsplit, hbreaks, -⟩ := (hleft.of_error hcues).error e rfl
    have hall : performEach token (first ++ second) s = .error (.failure f) t := by
      rw [performEach_append, bind_of_error hcues]
    rw [Yields, hall]
    rcases hbreaks.checkpoint_or_hook with ⟨-, rfl⟩ | ⟨stage, rfl⟩
    · exact .inr (.inl rfl)
    · refine .inr (.inr ⟨done, stage, rest ++ second, f, ?_, ?_, rfl, hbreaks⟩)
      · rw [hsplit, List.append_assoc]
        rfl
      · rw [hsplit, List.drop_eq_nil_of_le (by simp)]
        exact List.not_mem_nil

end Cue

/-! ## Whole runs -/

namespace Run

open Session Step

variable {κ : Type} [Device κ] {s : Session κ}

/-- The cancellations of a token make no difference to a run: without them it answers the same,
makes the same calls and leaves the same run. -/
def Unaffected (token : Token) (s : Session κ) : Prop :=
  answer (execute token) (s.spared token) = answer (execute token) s ∧
    (after (execute token) (s.spared token)).run = (after (execute token) s).run ∧
    (after (execute token) (s.spared token)).world.journal =
      (after (execute token) s).world.journal

/-- A run that does not escape is not affected by cancellations. -/
theorem escapes_or_unaffected {token : Token}
    (hknown : ∀ i ∈ token.path, i < s.world.tokens.cells.size) (hhorizon : s.world.horizon = none) :
    (∃ e, answer (execute token) s = .error e ∧ Escapes e) ∨ Unaffected token s := by
  have hagrees := mirrors_execute s (s.spared token) (spares_spared hknown hhorizon)
  rw [Agrees] at hagrees
  rw [Unaffected, answer, answer, after, after]
  cases hs : execute token s with
  | ok a t =>
    rw [hs] at hagrees
    obtain ⟨t', hs', ht⟩ := hagrees
    rw [hs']
    exact .inr ⟨rfl, ht.run, by rw [ht.world.world]⟩
  | error e t =>
    rw [hs] at hagrees
    rcases hagrees with he | ⟨t', hs', ht⟩
    · exact .inl ⟨e, rfl, he⟩
    · rw [hs']
      exact .inr ⟨rfl, ht.run, by rw [ht.world.world]⟩

omit [Device κ] in
/-- A hook is not called when a session is sealed. -/
theorem called_of_sealed {s₀ t : Session κ} {l : Ledger} {collecting : Bool}
    {failure : Option Failure} {r : Except Halt Unit} (h : Sealed s₀ l collecting s failure r t)
    (stage : Stage) : t.world.called stage = s.world.called stage := by
  rw [World.called, World.called, h.beats, List.count_append]
  cases collecting <;> simp [stops, List.count_eq_zero]

/-- What a cancellation leaves of a run, wherever it falls. -/
theorem yields_ends_soon (hfresh : s.Fresh)
    (hsteady : ∀ c ∈ s.run.collectors, Device.Steady c.device) (hrecordable : s.run.Recordable)
    (hhorizon : s.world.horizon = none) (token : Token) :
    Yields (execute token) s fun r t => ∃ n samples, n = s.run.config.allowed samples ∧
      t.run.isFinalized ∧ t.run.Shows samples ∧ t.run.executions = samples.length ∧
      (r = .ok () ∨ ∃ f, r = .error (.failure f)) ∧
      (∀ stage, t.world.called stage =
        (after (performEach token (s.cues n)) s.prepared).world.called stage) ∧
      (∀ first second, s.cues n = first ++ second → Stuck token s.prepared first second →
        (∀ stage, t.world.called stage ≤
          (after (performEach token first) s.prepared).world.called stage + 1) ∧
        samples.length ≤ (after (performEach token first) s.prepared).run.executions + 1) ∧
      ∀ first second, s.cues n = first ++ second →
        (after (performEach token first) s.prepared).world.tokens.isCancelled token →
        r = .error (.failure .cancelled) ∨ checkpoint ∉ second ∨
          ∃ done stage rest f u, s.cues n = done ++ .hook stage :: rest ∧
            checkpoint ∉ done.drop first.length ∧ r = .error (.failure f) ∧
            Breaks token s.prepared done (.hook stage) f u := by
  have htracks : s.Tracks {} false s.prepared := hfresh.tracks hsteady hrecordable hhorizon
  have honce (n : Nat) (first second : List Cue) (hsplit : s.cues n = first ++ second)
      (hstuck : Stuck token s.prepared first second) :=
    yields_once_after htracks (hsplit ▸ s.bracketAll_cues n) (hsplit ▸ s.isChain_cues n) hstuck
  have hends (n : Nat) (first second : List Cue) (hsplit : s.cues n = first ++ second)
      (hcancelled : (after (performEach token first) s.prepared).world.tokens.isCancelled token) :=
    yields_cancelled_after htracks (hsplit ▸ s.bracketAll_cues n) hcancelled
  refine (yields_execute hfresh hsteady hrecordable hhorizon token).mono ?_
  rintro r t ⟨n, l, rfl, hn, h⟩
  refine ⟨n, _, hn, ?_⟩
  rcases h with ⟨u, hcues, -, hsealed, hjudges⟩ | ⟨f, now, u, hcues, hleft, hsealed, -⟩
  · obtain ⟨reader, hstore, hshows, -⟩ := hsealed.reader
    have hcalled := called_of_sealed hsealed
    refine ⟨isFinalized_of_sealed hstore, ⟨reader, hstore, hshows⟩, hsealed.executions, ?_, ?_, ?_,
      ?_⟩
    · cases hjudges with
      | accepted => exact .inl rfl
      | refused metric ceiling mean => exact .inr ⟨_, rfl⟩
    · intro stage
      rw [hcalled, after, hcues]
      rfl
    · intro first second hsplit hstuck
      rw [hsplit] at hcues ⊢
      obtain ⟨hcalls, hsamples⟩ := (honce n first second hsplit hstuck).of_ok hcues
      exact ⟨fun stage => (hcalled stage).trans_le (hcalls stage), hsamples⟩
    · intro first second hsplit hcancelled
      rw [hsplit] at hcues
      rcases (hends n first second hsplit hcancelled).of_ok hcues with
        ⟨-, hnone⟩ | he | ⟨-, -, -, f, -, -, he, -⟩
      · exact .inr (.inl hnone)
      · cases he
      · cases he
  · obtain ⟨reader, hstore, hshows, -⟩ := hsealed.reader
    have hcalled := called_of_sealed hsealed
    refine ⟨isFinalized_of_sealed hstore, ⟨reader, hstore, hshows⟩, hsealed.executions,
      .inr ⟨f, hsealed.answer⟩, ?_, ?_, ?_⟩
    · intro stage
      rw [hcalled, after, hcues]
    · intro first second hsplit hstuck
      rw [hsplit] at hcues ⊢
      obtain ⟨hcalls, hsamples⟩ := (honce n first second hsplit hstuck).of_error hcues
      exact ⟨fun stage => (hcalled stage).trans_le (hcalls stage), hsamples⟩
    · intro first second hsplit hcancelled
      rw [hsplit] at hcues ⊢
      rcases (hends n first second hsplit hcancelled).of_error hcues with
        ⟨⟨_, ha⟩, -⟩ | he | ⟨done, stage, rest, g, hdone, hnone, he, hbreaks⟩
      · cases ha
      · exact .inl (hsealed.answer.trans he)
      · exact .inr (.inr ⟨done, stage, rest, g, u, hdone, hnone, hsealed.answer.trans he, hbreaks⟩)

/-- **A cancelled run ends soon.**  Wherever among the cues of a run its token turns out to be
cancelled, from there on every hook is called at most once more and at most one more sample is
written, even counted from before the cue within which it was cancelled; after the last cue neither
happens.  The store is sealed.  The run answers that it was cancelled, unless a call of a hook fails
before the next checkpoint, or there is no checkpoint any more; then the cancellations of the token
have made no difference. -/
theorem execute_ends_soon (hfresh : s.Fresh)
    (hsteady : ∀ c ∈ s.run.collectors, Device.Steady c.device) (hrecordable : s.run.Recordable)
    (hhorizon : s.world.horizon = none) (token : Token)
    (hknown : ∀ i ∈ token.path, i < s.world.tokens.cells.size) :
    ∃ n samples, n = s.run.config.allowed samples ∧
      (after (execute token) s).run.isFinalized ∧ (after (execute token) s).run.Shows samples ∧
      (∀ stage, (after (execute token) s).world.called stage =
        (after (performEach token (s.cues n)) s.prepared).world.called stage) ∧
      (∀ first cue second, s.cues n = first ++ cue :: second →
        (after (performEach token (first ++ [cue])) s.prepared).world.tokens.isCancelled token →
        (∀ stage, (after (execute token) s).world.called stage ≤
          (after (performEach token first) s.prepared).world.called stage + 1) ∧
        samples.length ≤ (after (performEach token first) s.prepared).run.executions + 1) ∧
      ∀ first second, s.cues n = first ++ second →
        (after (performEach token first) s.prepared).world.tokens.isCancelled token →
        (∀ stage, (after (execute token) s).world.called stage ≤
          (after (performEach token first) s.prepared).world.called stage + 1) ∧
        samples.length ≤ (after (performEach token first) s.prepared).run.executions + 1 ∧
        (answer (execute token) s = .error (.failure .cancelled) ∨
          (checkpoint ∉ second ∨ ∃ done stage rest f u, s.cues n = done ++ .hook stage :: rest ∧
            checkpoint ∉ done.drop first.length ∧ answer (execute token) s = .error (.failure f) ∧
            Breaks token s.prepared done (.hook stage) f u) ∧ Unaffected token s) := by
  obtain ⟨n, samples, hn, hsealed, hshows, -, hanswer, hcalled, honce, hends⟩ :=
    yields_iff.1 (yields_ends_soon hfresh hsteady hrecordable hhorizon token)
  have hunaffected : answer (execute token) s = .error (.failure .cancelled) ∨
      Unaffected token s := by
    refine (escapes_or_unaffected hknown hhorizon).imp_left ?_
    rintro ⟨e, he, rfl | hnone⟩
    · exact he
    · rcases hanswer with hok | ⟨f, hf⟩
      · rw [hok] at he
        cases he
      · rw [hf] at he
        exact absurd (Except.error.inj he).symm (hnone f)
  refine ⟨n, samples, hn, hsealed, hshows, hcalled, ?_, ?_⟩
  · intro first cue second hsplit hcancelled
    exact honce first (cue :: second) hsplit (stuck_of_cancelled_within second hcancelled)
  · intro first second hsplit hcancelled
    obtain ⟨hcalls, hsamples⟩ :=
      honce first second hsplit (stuck_of_cancelled second hcancelled)
    refine ⟨hcalls, hsamples, ?_⟩
    rcases hunaffected with hc | hunaffected
    · exact .inl hc
    · exact (hends first second hsplit hcancelled).imp id fun h => ⟨h, hunaffected⟩

/-- A run whose first call of the body cancels it, with two more calls to come. -/
def cancelsItself : Session Instrument where
  world := { tokens := { cells := #[{}, {}] } }
  work := { body := { script := fun k => if k = 0 then .cancel .method else .succeed } }
  run :=
    { config := { warmup := 0, executions := 1, repetitions := 3 }
      collectors := [⟨"time", 10, .summed .elapsed {}⟩]
      store := .writing (.ofPlanned 1) }

/-- The first call of the body is its last one, as there is a checkpoint before the second one. -/
theorem execute_ends_soon_cancelsItself :
    cancelsItself.Fresh ∧ (∀ c ∈ cancelsItself.run.collectors, Device.Steady c.device) ∧
      cancelsItself.run.Recordable ∧ cancelsItself.world.horizon = none ∧
      (∀ i ∈ Token.path ⟨1, [0]⟩, i < cancelsItself.world.tokens.cells.size) ∧
      (after (performEach ⟨1, [0]⟩ [checkpoint, .hook .before, .start, .hook .body])
        cancelsItself.prepared).world.tokens.isCancelled ⟨1, [0]⟩ ∧
      (after (execute ⟨1, [0]⟩) cancelsItself).run.isFinalized ∧
      (after (execute ⟨1, [0]⟩) cancelsItself).world.called .body ≤ 1 ∧
      ∃ samples, (after (execute ⟨1, [0]⟩) cancelsItself).run.Shows samples ∧
        samples.length ≤ 1 := by
  have hfresh : cancelsItself.Fresh :=
    ⟨cancelsItself.run.config, cancelsItself.run.collectors, cancelsItself.run, rfl, rfl⟩
  have hunbroken : ∀ c ∈ cancelsItself.run.collectors, c.device.Unbroken := by decide
  have hsteady : ∀ c ∈ cancelsItself.run.collectors, Device.Steady c.device :=
    fun c hc => (hunbroken c hc).steady
  have hrecordable : cancelsItself.run.Recordable := fun hspooled => by cases hspooled
  have hknown : ∀ i ∈ Token.path ⟨1, [0]⟩, i < cancelsItself.world.tokens.cells.size := by decide
  have hcancelled : (after (performEach ⟨1, [0]⟩ [checkpoint, .hook .before, .start, .hook .body])
      cancelsItself.prepared).world.tokens.isCancelled ⟨1, [0]⟩ := by decide +kernel
  have hcalled : (after (performEach ⟨1, [0]⟩ [checkpoint, .hook .before, .start])
      cancelsItself.prepared).world.called .body = 0 := by decide +kernel
  have hwritten : (after (performEach ⟨1, [0]⟩ [checkpoint, .hook .before, .start])
      cancelsItself.prepared).run.executions = 0 := by decide +kernel
  obtain ⟨n, samples, hn, hsealed, hshows, -, hwithin, -⟩ :=
    execute_ends_soon hfresh hsteady hrecordable rfl ⟨1, [0]⟩ hknown
  have hone : n = 1 := hn.trans (Configuration.allowed_of_disabled rfl samples)
  subst hone
  obtain ⟨hcalls, hsamples⟩ := hwithin [checkpoint, .hook .before, .start] (.hook .body)
    [checkpoint, .hook .body, checkpoint, .hook .body, .stop, write, .hook .after] rfl hcancelled
  rw [hwritten] at hsamples
  have honce := hcalls .body
  rw [hcalled] at honce
  exact ⟨hfresh, hsteady, hrecordable, rfl, hknown, hcancelled, hsealed, honce, samples, hshows,
    hsamples⟩

end Run

end Gauge
