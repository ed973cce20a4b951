import Gauge.Method
import Gauge.Proofs.Run.Attribution

/-!
# What a method answers

A method always answers, unless its factory breaks off or nobody waits for it any more, and its
outcome has its name.  The outcome is a cancellation only if somebody else has cancelled the method:
what its own deadline cancels is reported as a timeout.

## Main definitions

* `World.Undisturbed` — nobody else cancels a token from one world to another one.
* `Method.Plain` — the hooks of a method do not cancel for the suite, and do not hand on that they
  were cancelled.
* `TimeBound.Reports` — what a deadline makes of the end of its work.

## Main statements

* `TimeBound.yields_execute` — the end of work under a deadline.
* `Method.answers_or_panics` — a method answers, or its factory breaks off.
* `Method.status_ne_cancelled` — the outcome of a method that nobody else has cancelled.
-/

namespace Gauge

/-! ## Work under a deadline -/

namespace TimeBound

variable {ε α : Type}

/-- What a deadline reports of the end of its work.  Work that is left behind is reported as late,
unless nobody waits for the report either. -/
inductive Reports (horizon : Option Nat) :
    Except Halt α → Except Halt (Except Failure (Bounded α)) → Prop
  | finished (value : α) : Reports horizon (.ok value) (.ok (.ok (.finished value)))
  | late (value : α) : Reports horizon (.ok value) (.ok (.ok (.timedOut (some value))))
  | panicked (p : Panic) : Reports horizon (.error (.panic p)) (.ok (.error p.inWorker))
  | failed (f : Failure) : Reports horizon (.error (.failure f)) (.ok (.error f))
  | never : Reports horizon (.error .abandoned) (.ok (.ok (.timedOut none)))
  | abandoned (h : horizon ≠ none) : Reports horizon (.error .abandoned) (.error .abandoned)

/-- The alarm of a deadline that begins now. -/
def alarm (b : TimeBound) (token : Token) (w : World ε) : Alarm where
  due := w.clock + b.timeout.nanos
  token := token
  scope := b.scope

/-- The world in which work under a deadline begins. -/
def begun (b : TimeBound) (token : Token) (w : World ε) : World ε :=
  { (w.setAlarm (b.alarm token w)).passUntil w.clock with
    horizon := some (sooner w.horizon (w.clock + b.timeout.nanos + b.grace.nanos)) }

/-- What time does not break holds when the work begins, if the alarm of its deadline does not break
it. -/
theorem begun_of_setAlarm {b : TimeBound} {token : Token} {w : World ε} {I : World ε → Prop}
    (hkept : World.Kept I) (h : I (w.setAlarm (b.alarm token w))) : I (b.begun token w) :=
  hkept.quiet _ _ (hkept.pass _ w.clock h) rfl rfl rfl

theorem yields_ending {x : Act ε α} {w : World ε} {Q : Except Halt (Except Halt α) → World ε → Prop}
    (h : Yields x w fun r v => Q (.ok r) v) : Yields (ending x) w Q := by
  rw [Yields] at h
  rw [Yields, ending]
  cases hx : x w <;> simpa [hx] using h

/-- The world after work under a deadline is the one that the work has left, apart from the alarm
and the horizon. -/
structure Leaves (w u v : World ε) : Prop where
  tokens : v.tokens = u.tokens
  clock : v.clock = u.clock
  journal : v.journal = u.journal
  alarms : v.alarms ⊆ u.alarms
  horizon : v.horizon = w.horizon

/-- When work that began in a world has ended in another one, as far as the report says: an answer
that is in time has arrived before the deadline, a late one has not, and work that is reported as
left behind was awaited all the time. -/
structure Timed (b : TimeBound) (w u : World ε)
    (r : Except Halt (Except Failure (Bounded α))) : Prop where
  finished : ∀ value, r = .ok (.ok (.finished value)) → u.clock < w.clock + b.timeout.nanos
  late : ∀ value, r = .ok (.ok (.timedOut (some value))) →
    w.clock + b.timeout.nanos ≤ u.clock
  never : r = .ok (.ok (.timedOut none)) → ∀ time, w.horizon = some time → u.clock < time

/-- Work that is left behind is late, unless the wait for it has ended as well. -/
theorem yields_leftBehind (b : TimeBound) (w u v : World ε) (hclock : v.clock = u.clock) :
    Yields (match w.horizon with
      | none => return conclude .never
      | some time => do
        if time ≤ (← get).clock then throw .abandoned
        return conclude .never : Act ε (Except Failure (Bounded α))) v fun r v' =>
      (Reports w.horizon (.error .abandoned) r ∧ Timed b w u r) ∧ v' = v := by
  cases hhorizon : w.horizon with
  | none =>
    refine ⟨⟨.never, ⟨fun _ h => (by cases h), fun _ h => (by cases h), ?_⟩⟩, rfl⟩
    intro _ time htime
    simp [hhorizon] at htime
  | some time =>
    simp only [yields_bind, yields_get]
    by_cases hpassed : time ≤ v.clock
    · simp only [if_pos hpassed]
      exact ⟨⟨.abandoned (by simp), ⟨fun _ h => (by cases h), fun _ h => (by cases h),
        fun h => by cases h⟩⟩, rfl⟩
    · simp only [if_neg hpassed]
      refine ⟨⟨.never, ⟨fun _ h => (by cases h), fun _ h => (by cases h), ?_⟩⟩, rfl⟩
      intro _ other hother
      rw [hhorizon] at hother
      cases hother
      omega

/-- **The end of work under a deadline**: its report, when that was, and the world that it
leaves. -/
theorem yields_execute_timed {b : TimeBound} {token : Token} {work : Act ε α} {w : World ε}
    {Q : Except Halt α → World ε → Prop} (h : Yields work (b.begun token w) Q) :
    Yields (b.execute token work) w fun r v =>
      ∃ r' u, Q r' u ∧ (Reports w.horizon r' r ∧ Timed b w u r) ∧ Leaves w u v := by
  have hending := yields_ending (Q := fun r u => ∃ r', r = .ok r' ∧ Q r' u)
    (h.mono fun r u hr => ⟨r, rfl, hr⟩)
  simp only [execute, yields_bind, yields_get, yields_modify]
  refine Yields.mono hending ?_
  rintro r u ⟨r', rfl, hr'⟩
  dsimp only
  have hleaves : Leaves w u { (if u.clock < w.clock + b.timeout.nanos then
      u.clearAlarm (b.alarm token w) else u) with horizon := w.horizon } := by
    split
    · exact ⟨rfl, rfl, rfl, List.erase_subset, rfl⟩
    · exact ⟨rfl, rfl, rfl, List.Subset.refl _, rfl⟩
  cases r' with
  | ok value =>
    by_cases htime : u.clock < w.clock + b.timeout.nanos
    · simp only [if_pos htime] at hleaves ⊢
      exact ⟨_, u, hr', ⟨.finished value, fun _ _ => htime, fun _ h => (by cases h),
        fun h => by cases h⟩, hleaves⟩
    · simp only [if_neg htime] at hleaves ⊢
      exact ⟨_, u, hr', ⟨.late value, fun _ h => (by cases h), fun _ _ => not_lt.1 htime,
        fun h => by cases h⟩, hleaves⟩
  | error e =>
    cases e with
    | failure f =>
      exact ⟨_, u, hr', ⟨.failed f, fun _ h => (by cases h), fun _ h => (by cases h),
        fun h => by cases h⟩, hleaves⟩
    | panic p =>
      have hbroken : Timed (α := α) b w u (.ok (.error p.inWorker)) :=
        ⟨fun _ h => (by cases h), fun _ h => (by cases h), fun h => by cases h⟩
      by_cases htime : u.clock < w.clock + b.timeout.nanos
      · simp only [if_pos htime] at hleaves ⊢
        exact ⟨_, u, hr', ⟨.panicked p, hbroken⟩, hleaves⟩
      · simp only [if_neg htime] at hleaves ⊢
        exact ⟨_, u, hr', ⟨.panicked p, hbroken⟩, hleaves⟩
    | abandoned =>
      refine (yields_leftBehind b w u _ hleaves.clock).mono ?_
      rintro r v ⟨hr, rfl⟩
      exact ⟨_, u, hr', hr, hleaves⟩

/-- The end of work under a deadline, whenever that was. -/
theorem yields_execute {b : TimeBound} {token : Token} {work : Act ε α} {w : World ε}
    {Q : Except Halt α → World ε → Prop} (h : Yields work (b.begun token w) Q) :
    Yields (b.execute token work) w fun r v =>
      ∃ r' u, Q r' u ∧ Reports w.horizon r' r ∧ Leaves w u v := by
  refine (yields_execute_timed h).mono ?_
  rintro r v ⟨r', u, hr', ⟨hreports, -⟩, hleaves⟩
  exact ⟨r', u, hr', hreports, hleaves⟩

end TimeBound

/-! ## Runs under a deadline -/

/-- A step of a session that is opened for it. -/
theorem Session.yields_during {κ α : Type} {run : Run κ} {work : Workload} {x : Step κ α}
    {w : World (Event κ)} {Q : Except Halt (α × Run κ × Workload) → World (Event κ) → Prop}
    (h : Yields x { world := w, work := work, run := run } fun r t =>
      Q (r.map fun a => (a, t.run, t.work)) t.world) :
    Yields (Session.during run work x) w Q := by
  rw [Yields] at h
  rw [Yields, during]
  cases hx : x { world := w, work := work, run := run } <;> simpa [hx, Except.map] using h

/-- From one world to another one nobody else cancels a token: no cell on its path was touched
before, and no alarm that was due by the end is set for one. -/
structure World.Undisturbed {ε : Type} (token : Token) (w v : World ε) : Prop where
  cells : ∀ i ∈ token.path, w.tokens.cell i = {}
  alarms : ∀ a ∈ w.alarms, a.due ≤ v.clock → a.token.cell ∉ token.path

theorem World.Undisturbed.calm {ε : Type} {token : Token} {w v : World ε}
    (h : w.Undisturbed token v) : w.Calm token v.clock where
  cells _ i hi := by
    rw [h.cells i hi]
    exact ⟨fun he => (by cases he), fun he => by cases he⟩
  alarms a ha hdue hpath := absurd hpath (h.alarms a ha hdue)

namespace Method

variable {κ : Type} [Device κ] {m : Method κ} {registry : Registry κ} {token : Token}
  {w v : World (Event κ)}

/-- The hooks of a method do not cancel it in the name of its suite, and they do not hand on that
they were cancelled.  Hooks that hold no token and fail with errors of their own are of this
kind. -/
def Plain (m : Method κ) : Prop :=
  ∀ work, m.factory = .ok work → work.All (Action.Admitted (· ≠ .suite) (· ≠ .cancelled))

def work (token : Token) (run : Run κ) (workload : Workload) :
    Act (Event κ) (Except Failure Unit × Run κ × Workload) :=
  Session.during run workload (settle (Run.execute token))

/-- The work of a method breaks off or answers how it ended. -/
theorem unfailing_work (run : Run κ) (workload : Workload) (w : World (Event κ)) :
    Yields (work token run workload) w fun r _ => ∀ f, r ≠ .error (.failure f) := by
  refine Session.yields_during ((yields_settle _).2 (Step.yields_iff.2 ?_))
  intro f he
  cases hr : Step.answer (Run.execute token)
      { world := w, work := workload, run := run } with
  | ok a => simp [hr, settled, Except.map] at he
  | error e => cases e <;> simp [hr, settled, Except.map] at he

/-- **Work keeps what neither time nor a cancellation of its token breaks.** -/
theorem keeps_work {I : World (Event κ) → Prop} (hkept : World.Kept I)
    (hcancel : ∀ w scope, I w → I { w with tokens := w.tokens.cancel token scope }) (run : Run κ)
    (workload : Workload) (hw : I w) : Yields (work token run workload) w fun _ u => I u := by
  have hcomposes : Run.Composes (κ := κ) token fun _ x => Step.KeepsWorld I
      (Action.Admitted (fun _ => True) fun _ => True) x :=
    Run.composes_keepsWorld hkept fun _ _ ha =>
      hkept.perform (fun w scope _ => hcancel w scope) ha
  exact Session.yields_during ((yields_settle _).2
    ((hcomposes.execute ⟨w, workload, run⟩ hw fun _ _ _ _ => Action.admitted_all _).mono
      fun _ _ h => h.1))

/-- The failures that work answers with are explained. -/
theorem explains_work {run : Run κ} {workload : Workload} {scopes : Scope → Prop}
    {kind : Failure → Prop} (hkind : ∀ f : Failure, f.Own → kind f)
    (hwork : workload.All (Action.Admitted scopes kind)) (w : World (Event κ)) :
    Yields (work token run workload) w fun r u =>
      ∀ f data, r = .ok (.error f, data) → f.Explained kind token u.tokens := by
  have hexplains : Step.Explains (κ := κ) scopes kind token (Run.execute token) :=
    Run.explains_execute hkind
  have hrun := Step.yields_iff.1 (hexplains.explains ⟨w, workload, run⟩ hwork)
  refine Session.yields_during ((yields_settle _).2 (Step.yields_iff.2 ?_))
  intro f data he
  cases hr : Step.answer (Run.execute token) ⟨w, workload, run⟩ with
  | ok a => simp [hr, settled, Except.map] at he
  | error e =>
    cases e with
    | failure g =>
      simp only [hr, settled, Except.map, Except.ok.injEq, Prod.mk.injEq, Except.error.injEq] at he
      rw [hr] at hrun
      exact he.1 ▸ hrun g rfl
    | panic p | abandoned => simp [hr, settled, Except.map] at he

/-- Work in a calm world leaves it calm, and ends as cancelled only where its token is cancelled. -/
theorem yields_work {run : Run κ} {workload : Workload} {time : Nat} (hw : w.Calm token time)
    (hwork : workload.All (Action.Admitted (· ≠ .suite) (· ≠ .cancelled))) :
    Yields (work token run workload) w fun r u => u.Calm token time ∧
      ∀ data, r = .ok (.error .cancelled, data) → u.tokens.isCancelled token := by
  have hcomposes : Run.Composes (κ := κ) token fun _ x => Step.KeepsWorld
      (World.Calm token time) (Action.Admitted (· ≠ .suite) (· ≠ .cancelled)) x :=
    Run.composes_keepsWorld (World.kept_calm token time) fun _ _ ha =>
      (World.kept_calm token time).perform
        (fun _ _ hscope h => World.calm_cancel h token hscope) ha
  have hcalm : Yields (work token run workload) w fun _ u => u.Calm token time :=
    Session.yields_during ((yields_settle _).2
      ((hcomposes.execute ⟨w, workload, run⟩ hw hwork).mono fun _ _ h => h.1))
  have hkind (f : Failure) (hf : f.Own) : f ≠ .cancelled := by
    rintro rfl
    exact hf
  refine (hcalm.and (explains_work hkind hwork w)).mono fun r u hu => ⟨hu.1, fun data he => ?_⟩
  obtain hne | ⟨-, hcancelled⟩ := hu.2 _ data he
  · exact absurd rfl hne
  · exact hcancelled

/-- What a method reports of the end of its work. -/
def outcome (m : Method κ) (token : Token)
    (answer : Except Failure (Bounded (Except Failure Unit × Run κ × Workload))) (tokens : Tokens)
    (duration : Duration) : MethodOutcome :=
  let ended := verdict m.bound (tokens.reason? token) answer
  .ofEnding m.name ended.1 (ended.2.bind fun data => data.1.result.toOption) duration

/-- **The three ways of a method**: its run cannot be made, its factory breaks off, or its work runs
under its deadline. -/
theorem yields_execute {Q : Except Halt MethodOutcome → World (Event κ) → Prop}
    (hrefused : ∀ cause, Run.ofRegistry m.config registry m.collectors = .error cause →
      Q (.ok (.ofEnding m.name (.error (.misconfigured cause)) none (.ofNanos 0))) w)
    (hbroken : ∀ p, m.factory = .error p → Q (.error (.panic p)) w)
    (hran : ∀ run workload, Run.ofRegistry m.config registry m.collectors = .ok run →
      m.factory = .ok workload →
      Yields (m.bound.execute token (work token run workload)) w fun r v =>
        match r with
        | .ok answer => ∀ duration, Q (.ok (m.outcome token answer v.tokens duration)) v
        | .error e => Q (.error e) v) :
    Yields (m.execute registry token) w Q := by
  simp only [execute, yields_bind, yields_get]
  cases hregistry : Run.ofRegistry m.config registry m.collectors with
  | error cause =>
    simp only [yields_bind, yields_get, Nat.sub_self]
    exact hrefused cause hregistry
  | ok run =>
    dsimp only
    cases hfactory : m.factory with
    | error p => exact hbroken p hfactory
    | ok workload =>
      simp only [yields_bind, yields_get]
      refine (hran run workload hregistry hfactory).mono fun r v hr => ?_
      cases r with
      | error e => exact hr
      | ok answer => exact hr _

/-- The outcome of a method has its name. -/
theorem name_of_execute {o : MethodOutcome} (h : m.execute registry token w = .ok o v) :
    o.name = m.name := by
  have hname {ending : Except Failure Unit} {result : Option RunResult} {duration : Duration} :
      (MethodOutcome.ofEnding m.name ending result duration).name = m.name := by
    cases ending <;> rfl
  have hyields : Yields (m.execute registry token) w fun r _ =>
      ∀ o, r = .ok o → o.name = m.name := by
    refine yields_execute (fun cause _ o ho => ?_) (fun p _ o ho => ?_)
      fun run workload _ _ => ?_
    · cases ho
      rfl
    · cases ho
    · refine (yields_true _ _).mono fun r v _ => ?_
      cases r with
      | error e => exact fun o ho => by cases ho
      | ok answer =>
        rintro duration o ho
        cases ho
        exact hname
  exact hyields.of_ok h o rfl

/-- **A method answers, or its factory breaks off**, where somebody waits for it for ever. -/
theorem answers_or_panics (registry : Registry κ) (token : Token) (hw : w.horizon = none) :
    (∃ o v, m.execute registry token w = .ok o v) ∨
      ∃ p v, m.execute registry token w = .error (.panic p) v := by
  have hyields : Yields (m.execute registry token) w fun r _ =>
      (∃ o, r = .ok o) ∨ ∃ p, r = .error (.panic p) := by
    refine yields_execute (fun cause _ => .inl ⟨_, rfl⟩) (fun p _ => .inr ⟨p, rfl⟩)
      fun run workload _ _ => ?_
    refine (TimeBound.yields_execute (yields_true _ _)).mono ?_
    rintro r v ⟨r', u, -, hreports, -⟩
    cases hreports with
    | abandoned h => exact absurd hw h
    | finished | late | panicked | failed | never => exact fun _ => .inl ⟨_, rfl⟩
  rw [Yields] at hyields
  cases h : m.execute registry token w with
  | ok o v => exact .inl ⟨o, v, rfl⟩
  | error e v =>
    rw [h] at hyields
    rcases hyields with ⟨o, ho⟩ | ⟨p, hp⟩
    · cases ho
    · cases hp
      exact .inr ⟨p, v, rfl⟩

/-- Nothing of a method breaks off but its factory. -/
theorem factory_of_panic {p : Panic} (h : m.execute registry token w = .error (.panic p) v) :
    m.factory = .error p := by
  have hyields : Yields (m.execute registry token) w fun r _ =>
      ∀ p, r = .error (.panic p) → m.factory = .error p := by
    refine yields_execute (fun cause _ p hp => ?_) (fun p hfactory q hq => ?_)
      fun run workload _ _ => ?_
    · cases hp
    · cases hq
      exact hfactory
    · refine (TimeBound.yields_execute (yields_true _ _)).mono ?_
      rintro r v ⟨r', u, -, hreports, -⟩
      cases hreports with
      | abandoned => exact fun p hp => by cases hp
      | finished | late | panicked | failed | never => exact fun _ p hp => by cases hp
  exact hyields.of_error h p rfl

/-! ### Who cancelled a method -/

theorem attributed_ne_cancelled {bound : TimeBound} {reason : Option Scope}
    {ending : Except Failure Unit} (h : ending = .error .cancelled → reason = some .method) :
    attributed bound reason ending ≠ .error .cancelled := by
  cases ending with
  | ok _ => exact fun he => by cases he
  | error f =>
    cases f with
    | cancelled =>
      rw [attributed, if_pos (h rfl)]
      exact fun he => by cases he
    | workload | timeout | assertion | misconfigured | notFinalized | «sealed» | store =>
      exact fun he => by cases he

/-- A method that the suite has not cancelled is not reported as cancelled. -/
theorem verdict_ne_cancelled {β : Type} {bound : TimeBound} {reason : Option Scope}
    {answer : Except Failure (Bounded (Except Failure Unit × β))} (hsuite : reason ≠ some .suite)
    (hfailed : answer ≠ .error .cancelled)
    (hended : ∀ data, answer = .ok (.finished (.error .cancelled, data)) → reason = some .method) :
    (verdict bound reason answer).1 ≠ .error .cancelled := by
  cases answer with
  | error f =>
    exact attributed_ne_cancelled fun he =>
      absurd (congrArg Except.error (Except.error.inj he)) hfailed
  | ok bounded =>
    cases bounded with
    | finished value => exact attributed_ne_cancelled fun he => hended value.2 (by rw [← he])
    | timedOut late =>
      simp only [verdict, if_neg hsuite]
      exact attributed_ne_cancelled fun he => by cases he

theorem status_ofEnding {name : String} {ending : Except Failure Unit} {result : Option RunResult}
    {duration : Duration} (h : ending ≠ .error .cancelled) :
    (MethodOutcome.ofEnding name ending result duration).status ≠ .cancelled := by
  cases ending with
  | ok _ => exact fun he => by cases he
  | error f =>
    cases f with
    | cancelled => exact absurd rfl h
    | workload | timeout | assertion | misconfigured | notFinalized | «sealed» | store =>
      exact fun he => by cases he

omit [Device κ] in
/-- What a method reports of work that its suite has not cancelled. -/
theorem outcome_ne_cancelled {tokens : Tokens} {horizon : Option Nat} {duration : Duration}
    {r : Except Halt (Except Failure Unit × Run κ × Workload)}
    {answer : Except Failure (Bounded (Except Failure Unit × Run κ × Workload))}
    (hreports : TimeBound.Reports horizon r (.ok answer))
    (hfailed : ∀ f, r ≠ .error (.failure f))
    (hended : ∀ data, r = .ok (.error .cancelled, data) → tokens.isCancelled token)
    (hpath : ∀ i ∈ token.path, Tokens.Unblamed (tokens.cell i)) :
    (m.outcome token answer tokens duration).status ≠ .cancelled := by
  obtain ⟨hsuite, hmethod⟩ := Tokens.reason?_of_unblamed hpath
  refine status_ofEnding (verdict_ne_cancelled hsuite ?_ ?_)
  · cases hreports with
    | failed f => exact absurd rfl (hfailed f)
    | finished | late | panicked | never => exact fun he => by cases he
  · rintro data rfl
    cases hreports with
    | finished => exact hmethod (hended data rfl)

/-- **A method is reported as cancelled only if somebody else has cancelled it**: what its own
deadline cancels has timed out. -/
theorem status_ne_cancelled {o : MethodOutcome} (hplain : m.Plain)
    (h : m.execute registry token w = .ok o v) (hundisturbed : w.Undisturbed token v) :
    o.status ≠ .cancelled := by
  have hyields (time : Nat) (hcalm : w.Calm token time) : Yields (m.execute registry token) w
      fun r v => v.clock ≤ time → ∀ o, r = .ok o → o.status ≠ .cancelled := by
    refine yields_execute (fun cause _ _ o ho => ?_) (fun p _ _ o ho => ?_)
      fun run workload _ hfactory => ?_
    · cases ho
      exact fun he => by cases he
    · cases ho
    · have hbegun : (m.bound.begun token w).Calm token time :=
        TimeBound.begun_of_setAlarm (World.kept_calm token time)
          (World.calm_setAlarm hcalm fun he => by cases he)
      have hwork := Yields.and (yields_work hbegun (hplain workload hfactory))
        (unfailing_work run workload _)
      refine (TimeBound.yields_execute hwork).mono ?_
      rintro r v ⟨r', u, ⟨⟨hcalm', hended⟩, hfailed⟩, hreports, hleaves⟩
      cases r with
      | error e => exact fun _ o ho => by cases ho
      | ok answer =>
        rintro duration htime o ⟨⟩
        rw [hleaves.tokens]
        exact outcome_ne_cancelled hreports hfailed hended
          (hcalm'.cells (hleaves.clock ▸ htime))
  exact (hyields v.clock hundisturbed.calm).of_ok h le_rfl o rfl

end Method

end Gauge
