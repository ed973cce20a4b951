import Gauge.Proofs.Run.Steps

/-!
# Playing a schedule

A schedule is a list of beats, the calls that a run means to make.  A workload plays it up to the
first call of a hook that fails; what its hooks do at every call is all that decides how far it
comes.

## Main definitions

* `Beat` — a call of a hook or of a collector.
* `Action.failure?` — the failure of a hook whose call does an action.
* `Session.Hooked` — what the call of a hook does.
* `Workload.play` — how far a schedule is played.

## Main statements

* `Step.yields_callHook` — a hook is called if there is one.
* `Workload.play_beats_isPrefix` — what is played is a prefix of the schedule.
* `Workload.play_append` — a schedule in two parts.
-/

namespace Gauge

/-! ## Beats -/

/-- A call that can be heard of a run. -/
inductive Beat where
  | hook (stage : Stage)
  | collector (call : Call) (name : String)
  deriving DecidableEq

def Event.beat {κ : Type} : Event κ → Beat
  | hook stage => .hook stage
  | collector call who => .collector call who.name

/-- The calls that a journal records, in the order they happened. -/
def World.beats {κ : Type} (w : World (Event κ)) : List Beat := w.events.map Event.beat

theorem World.beats_log {κ : Type} (w : World (Event κ)) (event : Event κ) :
    beats { w with journal := event :: w.journal } = w.beats ++ [event.beat] := by
  simp [beats, events]

theorem World.Silent.beats {κ : Type} {w v : World (Event κ)} (h : w.Silent v) :
    v.beats = w.beats := by
  rw [World.beats, World.beats, World.events, World.events, h.journal]

/-! ## Failing calls -/

/-- The failure of a hook whose call does an action: an action fails by an error or by breaking off,
and several of them fail where the first of them does. -/
def Action.failure? : Action → Option Failure
  | fail error => some error.failure
  | panic p => some p.inHook
  | andThen first second => first.failure?.or second.failure?
  | _ => none

/-- The answer of a step that fails or not. -/
def answerOf : Option Failure → Except Halt Unit
  | none => .ok ()
  | some f => .error (.failure f)

/-- The answer of an action that is called in a hook. -/
theorem Action.inHook_answer (a : Action) : Step.inHook a.answer = answerOf a.failure? := by
  induction a with
  | andThen first second ihFirst ihSecond =>
    rw [answer, failure?]
    cases hfirst : first.answer with
    | ok _ =>
      have hnone : first.failure? = none := by
        cases hf : first.failure? with
        | none => rfl
        | some f =>
          rw [hfirst, hf] at ihFirst
          cases ihFirst
      rw [hnone]
      exact ihSecond
    | error h =>
      rw [hfirst] at ihFirst
      cases hf : first.failure? with
      | none =>
        rw [hf] at ihFirst
        cases h <;> cases ihFirst
      | some f =>
        rw [hf] at ihFirst
        exact ihFirst
  | _ => rfl

/-! ## Calls of hooks -/

/-- The call of a hook that there is: it is heard, it takes one call from the workload and leaves
the run.  Its answer is that of the action, or that the token is cancelled. -/
structure Session.Hooked {κ : Type} (s : Session κ) (token : Token) (stage : Stage)
    (action : Action) (r : Except Halt Unit) (t : Session κ) : Prop where
  next : s.work.next? stage = some (action, t.work)
  run : t.run = s.run
  onward : s.Onward t
  beats : t.world.beats = s.world.beats ++ [.hook stage]
  answer : s.world.horizon = none → r = answerOf action.failure? ∨
    r = .error (.failure .cancelled) ∧ t.world.tokens.isCancelled token

/-- A hook is called if there is one. -/
theorem Step.yields_callHook {κ : Type} (token : Token) (stage : Stage) (s : Session κ) :
    Yields (callHook token stage) s fun r t =>
      (s.work.next? stage = none ∧ r = .ok () ∧ t = s) ∨
        ∃ action, s.Hooked token stage action r t := by
  simp only [callHook, yields_bind, yields_get]
  cases hnext : s.work.next? stage with
  | none => exact .inl ⟨rfl, rfl, rfl⟩
  | some called =>
    obtain ⟨action, work⟩ := called
    simp only [yields_bind, yields_modify, yields_inWorld, World.log]
    rw [yields_guarded, yields_inWorld]
    refine (action.answers_call token _).mono ?_
    rintro r w ⟨hsilent, hr⟩
    have honward : s.Onward { s with work := work, world := w } :=
      (Session.onward_next hnext).trans
        (Session.onward_world ⟨hsilent.horizon, hsilent.cancelled⟩)
    refine .inr ⟨action, hnext, rfl, honward, ?_, fun hhorizon => ?_⟩
    · rw [hsilent.beats, World.beats_log]
      rfl
    · rcases hr hhorizon with rfl | ⟨rfl, hcancelled⟩
      · exact .inl action.inHook_answer
      · exact .inr ⟨rfl, hcancelled⟩

/-! ## Playing -/

/-- How far a schedule was played: the calls that were made, the workload after them, and the stage
and the failure of the last one if it failed. -/
structure Performance where
  beats : List Beat
  work : Workload
  failure : Option (Stage × Failure)

namespace Performance

/-- The stage of the hook call that failed. -/
def failedIn (p : Performance) : Option Stage := p.failure.map (·.1)

/-- The calls that were made, and those that close a bracket after a failing one. -/
def heard (p : Performance) (closing : Stage → List Beat) : List Beat :=
  p.beats ++ (p.failedIn.map closing).getD []

/-- A performance behind one more call. -/
def after (beat : Beat) (p : Performance) : Performance := { p with beats := beat :: p.beats }

end Performance

namespace Workload

/-- Plays a schedule up to the first call of a hook that fails.  A hook that is missing is passed
over. -/
def play (work : Workload) : List Beat → Performance
  | [] => { beats := [], work := work, failure := none }
  | .collector call name :: rest => (work.play rest).after (.collector call name)
  | .hook stage :: rest =>
    match work.next? stage with
    | none => work.play rest
    | some (action, work) =>
      match action.failure? with
      | none => (work.play rest).after (.hook stage)
      | some f => { beats := [.hook stage], work := work, failure := some (stage, f) }

/-- The call of a hook in a schedule, if there is the hook. -/
def beatOf (work : Workload) (stage : Stage) : List Beat :=
  if (work.hook? stage).isSome then [.hook stage] else []

theorem beatOf_eq (work : Workload) (stage : Stage) :
    work.beatOf stage = if (work.next? stage).isSome then [.hook stage] else [] := by
  rw [beatOf, next?, Option.isSome_map]

/-- One call of a hook is played as the script of the hook says. -/
theorem play_beatOf (work : Workload) (stage : Stage) :
    work.play (work.beatOf stage) =
      match work.next? stage with
      | none => { beats := [], work := work, failure := none }
      | some (action, work') =>
        { beats := [.hook stage], work := work', failure := action.failure?.map (stage, ·) } := by
  cases hhook : work.hook? stage with
  | none => simp [beatOf, next?, hhook, play]
  | some hook =>
    simp only [beatOf, next?, hhook, play, Option.isSome_some, if_true, Option.map_some]
    cases (hook.script hook.calls).failure? <;> rfl

/-- The calls that a workload can make: those of collectors, and those of its own hooks. -/
def Makes (work : Workload) (schedule : List Beat) : Prop :=
  ∀ stage, .hook stage ∈ schedule → (work.hook? stage).isSome

/-- A schedule in two parts: the second part is played by what is left of the workload, unless a
call of the first one fails. -/
theorem play_append (work : Workload) (first second : List Beat) :
    work.play (first ++ second) =
      match (work.play first).failure with
      | some _ => work.play first
      | none => { (work.play first).work.play second with
          beats := (work.play first).beats ++ ((work.play first).work.play second).beats } := by
  induction first generalizing work with
  | nil => rfl
  | cons beat first ih =>
    cases beat with
    | collector call name =>
      rw [List.cons_append, play, play, ih]
      cases hfailure : (work.play first).failure <;> simp [Performance.after, hfailure]
    | hook stage =>
      cases hnext : work.next? stage with
      | none =>
        simp only [List.cons_append, play, hnext]
        exact ih work
      | some called =>
        obtain ⟨action, work'⟩ := called
        cases haction : action.failure? with
        | some f => simp only [List.cons_append, play, hnext, haction]
        | none =>
          simp only [List.cons_append, play, hnext, haction]
          rw [ih]
          cases hfailure : (work'.play first).failure <;> simp [Performance.after, hfailure]

/-- **What is played is a prefix of the schedule**, and the whole schedule where nothing fails. -/
theorem play_beats_isPrefix {work : Workload} {schedule : List Beat} (h : work.Makes schedule) :
    (work.play schedule).beats <+: schedule ∧
      ((work.play schedule).failure = none → (work.play schedule).beats = schedule) := by
  induction schedule generalizing work with
  | nil => exact ⟨List.prefix_rfl, fun _ => rfl⟩
  | cons beat rest ih =>
    have hrest : work.Makes rest := fun stage hstage => h stage (List.mem_cons_of_mem _ hstage)
    cases beat with
    | collector call name =>
      obtain ⟨hbegin, hall⟩ := ih hrest
      exact ⟨(List.prefix_cons_inj _).2 hbegin, fun hnone => congrArg _ (hall hnone)⟩
    | hook stage =>
      obtain ⟨hook, hhook⟩ := Option.isSome_iff_exists.1 (h stage List.mem_cons_self)
      have hnext : work.next? stage = some (hook.script hook.calls,
          work.setHook { hook with calls := hook.calls + 1 } stage) := by
        rw [next?, hhook]
        rfl
      rw [play, hnext]
      simp only
      cases (hook.script hook.calls).failure? with
      | some f => exact ⟨by simp, fun hnone => by cases hnone⟩
      | none =>
        have hmakes : (work.setHook { hook with calls := hook.calls + 1 } stage).Makes rest :=
          fun other hother => (hook?_next? hnext other).trans (hrest other hother)
        obtain ⟨hbegin, hall⟩ := ih hmakes
        exact ⟨(List.prefix_cons_inj _).2 hbegin, fun hnone => congrArg _ (hall hnone)⟩

/-- A call that fails is one of the schedule. -/
theorem mem_of_failure {work : Workload} {schedule : List Beat} {stage : Stage} {f : Failure}
    (h : (work.play schedule).failure = some (stage, f)) : .hook stage ∈ schedule := by
  induction schedule generalizing work with
  | nil => cases h
  | cons beat rest ih =>
    cases beat with
    | collector call name => exact List.mem_cons_of_mem _ (ih h)
    | hook other =>
      rw [play] at h
      cases hnext : work.next? other with
      | none =>
        rw [hnext] at h
        exact List.mem_cons_of_mem _ (ih h)
      | some called =>
        obtain ⟨action, work'⟩ := called
        rw [hnext] at h
        simp only at h
        cases hfailure : action.failure? with
        | none =>
          rw [hfailure] at h
          exact List.mem_cons_of_mem _ (ih h)
        | some g =>
          rw [hfailure] at h
          cases h
          exact List.mem_cons_self

theorem mem_beatOf {work : Workload} {stage other : Stage} (h : .hook other ∈ work.beatOf stage) :
    other = stage := by
  rw [beatOf] at h
  split at h
  · simpa using h
  · cases h

/-- Calls of collectors are played whatever a workload does. -/
theorem play_map_collector (work : Workload) (call : Call) (names : List String) :
    work.play (names.map (.collector call)) =
      { beats := names.map (.collector call), work := work, failure := none } := by
  induction names with
  | nil => rfl
  | cons name names ih =>
    rw [List.map_cons, play, ih]
    rfl

end Workload

end Gauge
