import Gauge.Proofs.Suite.Exchange

/-!
# Work under a deadline in virtual time

Work that is executed under a deadline in a world goes through one of the schedules of its two
threads: the clock of the world says which wait expires, and the alarm of the deadline is the call
with which the controller cancels the token.

## Main definitions

* `World.Cooperative` — work that changes tokens only by letting time pass and cancelling its own.
* `World.Grows` — the tokens of a world have grown out of a forest, around the ringing of an alarm.

## Main statements

* `Method.cooperative_work` — the work of a method is of this kind.
* `World.kept_grows` — time that passes lets the tokens grow.
* `TimeBound.execute_is_faithful` — every schedule is faithful, and work under a deadline follows
  one.
-/

namespace Gauge

/-! ## Work -/

namespace World

variable {ε α : Type}

/-- Work that answers or breaks off, that is left behind only when nobody waits for it any more, and
that keeps what neither time nor a cancellation of its own token breaks. -/
structure Cooperative (token : Token) (work : Act ε α) : Prop where
  patient : Patient work
  unfailing : ∀ w, Yields work w fun r _ => ∀ f, r ≠ .error (.failure f)
  keeps : ∀ {I : World ε → Prop}, Kept I →
    (∀ w scope, I w → I { w with tokens := w.tokens.cancel token scope }) →
    ∀ w, I w → Yields work w fun _ v => I v

/-- Work that sleeps and answers is cooperative. -/
theorem cooperative_sleep (token : Token) (nanos : Nat) (a : α) :
    Cooperative token (do sleep nanos; return a : Act ε α) := by
  -- what holds of the sleep, whether it is left behind or not, holds of the answer
  have hsleep {Q : Except Halt α → World ε → Prop} {w : World ε}
      (h : Yields (goOn (w.clock + nanos)) w fun r v => Q (r.map fun _ => a) v) :
      Yields (do sleep nanos; return a : Act ε α) w Q := by
    rw [yields_bind]
    refine Yields.mono (x := sleep nanos) (h.congr rfl) fun r v hr => ?_
    cases r with
    | ok _ => exact hr
    | error e => exact hr
  refine { patient := fun w => hsleep ?_, unfailing := fun w => hsleep ?_,
           keeps := fun hkept _ w hw => hsleep (hkept.goOn _ hw) }
  · refine (patient_goOn (fun _ => w.clock + nanos) w).mono fun r v hv => ⟨hv.horizon, fun he => ?_⟩
    cases r with
    | ok _ => cases he
    | error e => exact hv.reached (by cases he; rfl)
  · simp only [Yields, goOn]
    cases w.horizon with
    | none => exact fun _ he => by cases he
    | some horizon =>
      by_cases hlt : w.clock + nanos < horizon
      · simp only [if_pos hlt]
        exact fun _ he => by cases he
      · simp only [if_neg hlt]
        exact fun _ he => by cases he

end World

/-- **The work of a method is cooperative.** -/
theorem Method.cooperative_work {κ : Type} [Device κ] (token : Token) (run : Run κ)
    (workload : Workload) : World.Cooperative token (work token run workload) where
  patient := patient_work run workload
  unfailing := unfailing_work run workload
  keeps hkept hcancel _ hw := keeps_work hkept hcancel run workload hw

/-! ## Tokens that grow -/

namespace World

variable {ε : Type} {w v : World ε} {forest f : Forest} {alarm : Alarm}

/-- The tokens of a world have grown out of a forest: an alarm is still to ring, or its call came
between other steps. -/
inductive Grows (forest : Forest) (alarm : Alarm) (w : World ε) : Prop
  | before {f : Forest} (hleads : forest.Leads f) (hbears : w.Bears f) (hset : alarm ∈ w.alarms)
      (htime : w.clock < alarm.due)
  | after {f g : Forest} (hleads : forest.Leads f)
      (hafter : (f.cancel alarm.token alarm.scope).Leads g) (hbears : w.Bears g)
      (htime : alarm.due ≤ w.clock)

/-- An alarm rings, between other ones, where time passes that it is due. -/
theorem grows_pass (hleads : forest.Leads f) (hbears : w.Bears f) (hset : alarm ∈ w.alarms)
    {time : Nat} (htime : w.clock < alarm.due ∨ w.clock ≤ time) :
    Grows forest alarm (w.passUntil time) := by
  by_cases hdue : alarm.due ≤ time
  · have hrings : alarm ∈ w.alarms.filter fun b => b.due ≤ time :=
      List.mem_filter.2 ⟨hset, decide_eq_true hdue⟩
    obtain ⟨sooner, later, hsplit⟩ := List.append_of_mem hrings
    have hknown (b : Alarm) (hb : b ∈ sooner ++ alarm :: later) : b.token ∈ f.handles :=
      hbears.alarms b (List.mem_filter.1 (hsplit ▸ hb)).1
    obtain ⟨f', hf', htokens⟩ := Forest.exists_leads_afterAlarms fun b hb =>
      hknown b (List.mem_append_left _ hb)
    obtain ⟨g, hg, htokens'⟩ := Forest.exists_leads_afterAlarms
      (f := f'.cancel alarm.token alarm.scope) fun b hb =>
        hf'.kept.handles (hknown b (List.mem_append_right _ (List.mem_cons_of_mem _ hb)))
    refine .after (hleads.trans hf') hg ⟨?_, fun b hb => ?_⟩ ?_
    · rw [passUntil_eq, hsplit, htokens', Forest.cancel_tokens, htokens, ← hbears.tokens]
      simp only [Tokens.afterAlarms, List.foldl_append, List.foldl_cons]
    · rw [passUntil_eq] at hb
      exact hg.kept.handles (hf'.kept.handles (hbears.alarms b (List.mem_filter.1 hb).1))
    · rw [passUntil_eq]
      exact hdue.trans (le_max_right _ _)
  · obtain ⟨g, hg, hv⟩ := hbears.pass time
    refine .before (hleads.trans hg) hv ?_ ?_
    · rw [passUntil_eq]
      exact List.mem_filter.2 ⟨hset, by simpa using hdue⟩
    · rw [passUntil_eq]
      exact max_lt (by omega) (by omega)

/-- **Time that passes lets the tokens grow.** -/
theorem kept_grows (forest : Forest) (alarm : Alarm) : Kept (ε := ε) (Grows forest alarm) where
  quiet w v hw hclock htokens halarms := by
    have hbears {g : Forest} (h : w.Bears g) : v.Bears g :=
      ⟨htokens.trans h.tokens, fun b hb => h.alarms b (halarms ▸ hb)⟩
    cases hw with
    | before hleads h hset htime =>
      exact .before hleads (hbears h) (halarms ▸ hset) (hclock ▸ htime)
    | after hleads hafter h htime => exact .after hleads hafter (hbears h) (hclock ▸ htime)
  pass w time hw := by
    cases hw with
    | before hleads hbears hset htime => exact grows_pass hleads hbears hset (.inl htime)
    | after hleads hafter hbears htime =>
      obtain ⟨g, hg, hv⟩ := hbears.pass time
      refine .after hleads (hafter.trans hg) hv ?_
      rw [passUntil_eq]
      exact htime.trans (le_max_left _ _)

/-- So does a call that cancels one of them. -/
theorem Grows.cancel {token : Token} (h : Grows forest alarm w) (ht : token ∈ forest.handles)
    (scope : Scope) : Grows forest alarm { w with tokens := w.tokens.cancel token scope } := by
  cases h with
  | @before f hleads hbears hset htime =>
    refine .before (hleads.trans (Forest.leads_cancel (hleads.kept.handles ht) scope)) ⟨?_, ?_⟩ hset
      htime
    · exact congrArg (·.cancel token scope) hbears.tokens
    · exact hbears.alarms
  | @after f g hleads hafter hbears htime =>
    have hg := hafter.kept.handles (hleads.kept.handles ht)
    refine .after hleads (hafter.trans (Forest.leads_cancel hg scope)) ⟨?_, ?_⟩ htime
    · exact congrArg (·.cancel token scope) hbears.tokens
    · exact hbears.alarms

end World

/-! ## Schedules of the world -/

namespace TimeBound

variable {ε α : Type} {b : TimeBound} {token : Token} {work : Act ε α} {forest f g : Forest}
  {party : Party} {st st' : Exchange α} {answer : Except Panic α} {w : World ε}

/-- A state that some schedule leads to. -/
def Reaches (b : TimeBound) (token : Token) (work : Act ε α) (forest : Forest)
    (st : Exchange α) : Prop :=
  ∃ parties, b.Schedule token work forest parties st

theorem Reaches.move (h : b.Reaches token work forest st)
    (hmoves : b.Moves token work st party st') : b.Reaches token work forest st' := by
  obtain ⟨parties, hschedule⟩ := h
  exact ⟨_, hschedule.move hmoves⟩

/-- Other threads make their steps while the controller waits. -/
theorem Reaches.others (h : b.Reaches token work forest st) (hrecorded : st.controller ≠ .recorded)
    (hleads : st.forest.Leads f) : b.Reaches token work forest { st with forest := f } := by
  induction hleads with
  | refl => exact h
  | tail _ hmoves ih => exact ih.move (.other hmoves fun he => absurd he hrecorded)

theorem Reaches.handed (h : b.Reaches token work forest st) (hworker : st.worker = .working)
    (hroom : st.channel = none) (hthere : st.controller.There) (hends : EndsWith work answer) :
    b.Reaches token work forest
      { st with
        worker := .gone, channel := some answer, ended := some answer, sent := some answer } :=
  (h.move (.finish hworker hends)).move (.send rfl hroom hthere)

/-- An answer that is there before the deadline is received. -/
theorem reaches_inTime (b : TimeBound) (token : Token) (hleads : forest.Leads f)
    (hends : EndsWith work answer) :
    ∃ st, b.Reaches token work forest st ∧ st.controller = .left (conclude (.inTime answer)) ∧
      st.forest = f := by
  have hbegun : b.Reaches token work forest { forest := forest } := ⟨[], .begin⟩
  have hothers := hbegun.others (by simp) hleads
  exact ⟨_, (hothers.handed rfl rfl trivial hends).move (.receive rfl rfl), rfl, rfl⟩

/-- The controller cancels the token between the steps of other threads, and waits again. -/
theorem reaches_inGrace (b : TimeBound) (work : Act ε α) (hleads : forest.Leads f)
    (hafter : (f.cancel token b.scope).Leads g) :
    b.Reaches token work forest
      { forest := g
        controller := .inGrace
        found := some (f.tokens.cell token.cell).reason } := by
  have hbegun : b.Reaches token work forest { forest := forest } := ⟨[], .begin⟩
  have hexpired := (hbegun.others (by simp) hleads).move (.expire rfl rfl)
  have hcancelled := (hexpired.move (.record rfl)).move (.raise rfl)
  exact hcancelled.others (by simp) hafter

theorem reaches_late (hleads : forest.Leads f) (hafter : (f.cancel token b.scope).Leads g)
    (hends : EndsWith work answer) :
    ∃ st, b.Reaches token work forest st ∧ st.controller = .left (conclude (.inGrace answer)) ∧
      st.forest = g :=
  ⟨_, ((reaches_inGrace b work hleads hafter).handed rfl rfl trivial hends).move (.late rfl rfl),
    rfl, rfl⟩

theorem reaches_never (work : Act ε α) (hleads : forest.Leads f)
    (hafter : (f.cancel token b.scope).Leads g) :
    ∃ st, b.Reaches token work forest st ∧ st.controller = .left (conclude .never) ∧
      st.forest = g :=
  ⟨_, (reaches_inGrace b work hleads hafter).move (.graceOver rfl rfl), rfl, rfl⟩

/-! ### Work in the world -/

/-- When the work begins its tokens have not grown yet, unless there is no time. -/
theorem grows_begun (b : TimeBound) (hw : w.Bears forest) (ht : token ∈ forest.handles) :
    (b.begun token w).Grows forest (b.alarm token w) := by
  have hset : (w.setAlarm (b.alarm token w)).Bears forest := by
    refine ⟨hw.tokens, fun a ha => ?_⟩
    rcases World.mem_setAlarm ha with rfl | ha
    · exact ht
    · exact hw.alarms a ha
  have hmem : b.alarm token w ∈ (w.setAlarm (b.alarm token w)).alarms := by
    simp [World.setAlarm]
  exact (World.kept_grows forest _).quiet _ _
    (World.grows_pass .refl hset hmem (.inr le_rfl)) rfl rfl rfl

/-- Work whose tokens have grown, and that has ended in a world with an answer, is received there in
time or late. -/
theorem exists_reaches_of_grows {u : World ε} (hgrows : u.Grows forest (b.alarm token w))
    (hends : EndsWith work answer) :
    ∃ st, b.Reaches token work forest st ∧ u.tokens = st.forest.tokens ∧
      (u.clock < w.clock + b.timeout.nanos ∧ st.controller = .left (conclude (.inTime answer)) ∨
        w.clock + b.timeout.nanos ≤ u.clock ∧
          st.controller = .left (conclude (.inGrace answer))) := by
  cases hgrows with
  | before hleads hbears _ htime =>
    obtain ⟨st, hreaches, hleft, hforest⟩ := reaches_inTime b token hleads hends
    exact ⟨st, hreaches, hforest ▸ hbears.tokens, .inl ⟨htime, hleft⟩⟩
  | after hleads hafter hbears htime =>
    obtain ⟨st, hreaches, hleft, hforest⟩ := reaches_late hleads hafter hends
    exact ⟨st, hreaches, hforest ▸ hbears.tokens, .inr ⟨htime, hleft⟩⟩

/-- Work that has answered, or broken off, has ended with that. -/
theorem endsWith_of_yields {r : Except Halt α} {u : World ε}
    (h : Yields work w fun r' u' => r' = r ∧ u' = u) :
    (∀ value, r = .ok value → EndsWith work (.ok value)) ∧
      ∀ p, r = .error (.panic p) → EndsWith work (.error p) := by
  rw [Yields] at h
  constructor
  · rintro value rfl
    cases hx : work w with
    | ok a v =>
      rw [hx] at h
      cases h.1
      exact ⟨w, v, hx⟩
    | error e v =>
      rw [hx] at h
      cases h.1
  · rintro p rfl
    cases hx : work w with
    | ok a v =>
      rw [hx] at h
      cases h.1
    | error e v =>
      rw [hx] at h
      cases h.1
      exact ⟨w, v, hx⟩

/-- Work that is left behind was so after its deadline. -/
theorem deadline_le_of_waits {u : World ε} (hhorizon : w.horizon = none)
    (h : World.Waits (.error .abandoned : Except Halt α) (b.begun token w) u) :
    w.clock + b.timeout.nanos ≤ u.clock := by
  obtain ⟨time, htime, hle⟩ := h.reached rfl
  have hsooner : sooner w.horizon (w.clock + b.timeout.nanos + b.grace.nanos) = time :=
    Option.some.inj htime
  rw [hhorizon, sooner] at hsooner
  omega

/-- **Work under a deadline follows a schedule** of its two threads, with the same report and the
same tokens. -/
theorem execute_reaches (b : TimeBound) (hwork : World.Cooperative token work)
    (hhorizon : w.horizon = none) (hw : w.Bears forest) (ht : token ∈ forest.handles) :
    ∃ report v st, b.execute token work w = .ok report v ∧ b.Reaches token work forest st ∧
      st.controller = .left report ∧ v.tokens = st.forest.tokens := by
  have hgrown := hwork.keeps (World.kept_grows forest (b.alarm token w))
    (fun _ scope h => h.cancel ht scope) _ (b.grows_begun hw ht)
  have hended := (yields_self work (b.begun token w)).and
    ((hwork.unfailing _).and ((hwork.patient _).and hgrown))
  have hyields : Yields (b.execute token work) w fun r v => ∃ report st, r = .ok report ∧
      b.Reaches token work forest st ∧ st.controller = .left report ∧
      v.tokens = st.forest.tokens := by
    refine (yields_execute_timed hended).mono ?_
    rintro r v ⟨r', u, ⟨hends, hfailed, hwaits, hgrows⟩, ⟨hreports, htimed⟩, hleaves⟩
    obtain ⟨hvalue, hpanic⟩ := endsWith_of_yields hends
    rw [hleaves.tokens]
    cases hreports with
    | finished value =>
      have := htimed.finished value rfl
      obtain ⟨st, hreaches, htokens, ⟨-, hleft⟩ | ⟨hlate, -⟩⟩ :=
        exists_reaches_of_grows hgrows (hvalue value rfl)
      · exact ⟨_, st, rfl, hreaches, hleft, htokens⟩
      · omega
    | late value =>
      have := htimed.late value rfl
      obtain ⟨st, hreaches, htokens, ⟨htime, -⟩ | ⟨-, hleft⟩⟩ :=
        exists_reaches_of_grows hgrows (hvalue value rfl)
      · omega
      · exact ⟨_, st, rfl, hreaches, hleft, htokens⟩
    | panicked p =>
      obtain ⟨st, hreaches, htokens, ⟨-, hleft⟩ | ⟨-, hleft⟩⟩ :=
        exists_reaches_of_grows hgrows (hpanic p rfl)
      · exact ⟨_, st, rfl, hreaches, hleft, htokens⟩
      · exact ⟨_, st, rfl, hreaches, hleft, htokens⟩
    | failed f => exact absurd rfl (hfailed f)
    | never =>
      have hlate := deadline_le_of_waits hhorizon hwaits
      cases hgrows with
      | before _ _ _ htime => exact absurd htime (not_lt.2 hlate)
      | after hleads hafter hbears =>
        obtain ⟨st, hreaches, hleft, hforest⟩ := reaches_never work hleads hafter
        exact ⟨_, st, rfl, hreaches, hleft, hforest ▸ hbears.tokens⟩
    | abandoned h => exact absurd hhorizon h
  rw [Yields] at hyields
  cases hx : b.execute token work w with
  | ok report v =>
    rw [hx] at hyields
    obtain ⟨report', st, hreport, hreaches, hleft, htokens⟩ := hyields
    cases hreport
    exact ⟨report, v, st, rfl, hreaches, hleft, htokens⟩
  | error e v =>
    rw [hx] at hyields
    obtain ⟨report', st, hreport, -⟩ := hyields
    cases hreport

/-- **Work under a deadline neither loses nor invents nor mislabels a result.**  Every schedule of
the worker, the controller and all other threads is faithful in each of its states, and the two
threads come to an end.  Work that is executed under a deadline in a world follows such a schedule:
it is reported as the controller reports, and it leaves the same tokens. -/
theorem execute_is_faithful (b : TimeBound) (work : Act ε α) (hgrown : forest.Grown)
    (ht : token ∈ forest.handles) :
    (∀ parties st, b.Schedule token work forest parties st →
      b.Faithful token work st ∧ parties.countP (· ≠ .others) ≤ 6) ∧
    (∀ w : World ε, World.Cooperative token work → w.horizon = none → w.Bears forest →
      ∃ report v parties st, b.execute token work w = .ok report v ∧
        b.Schedule token work forest parties st ∧ st.controller = .left report ∧
        v.tokens = st.forest.tokens) := by
  constructor
  · intro parties st h
    exact ⟨(h.consistent hgrown.sound ht).faithful, h.countP_le⟩
  · intro w hwork hhorizon hw
    obtain ⟨report, v, st, hexecute, ⟨parties, hschedule⟩, hleft, htokens⟩ :=
      b.execute_reaches hwork hhorizon hw ht
    exact ⟨report, v, parties, st, hexecute, hschedule, hleft, htokens⟩

/-! ### Work that answers late -/

def oneToken : Forest where
  tokens := { cells := #[{}] }
  handles := [⟨0, []⟩]

/-- Three nanoseconds, with ten more. -/
def shortBound : TimeBound where
  scope := .method
  timeout := .ofNanos 3
  grace := .ofNanos 10

/-- Work that sleeps for five nanoseconds. -/
def lateWork : Act Unit Nat := do
  World.sleep 5
  return 7

theorem execute_lateWork : ∃ v,
    shortBound.execute ⟨0, []⟩ lateWork { tokens := oneToken.tokens } =
      .ok (.ok (.timedOut (some 7))) v :=
  ⟨_, rfl⟩

/-- Work that answers in the grace period: its value is reported as late, by a controller that has
cancelled the token for its own scope. -/
theorem execute_is_faithful_lateWork : ∃ v parties st,
    shortBound.execute ⟨0, []⟩ lateWork { tokens := oneToken.tokens } =
      .ok (.ok (.timedOut (some 7))) v ∧
    shortBound.Schedule ⟨0, []⟩ lateWork oneToken parties st ∧
    st.controller = .left (.ok (.timedOut (some 7))) ∧ st.ended = some (.ok 7) ∧
    (v.tokens.cell 0).raised ∧ (v.tokens.cell 0).reason.isSome := by
  have hgrown : oneToken.Grown := Relation.ReflTransGen.single .root
  obtain ⟨hschedules, hexecutes⟩ :=
    execute_is_faithful shortBound lateWork hgrown (List.mem_singleton_self _)
  obtain ⟨report, v, parties, st, hexecute, hschedule, hleft, htokens⟩ :=
    hexecutes { tokens := oneToken.tokens } (World.cooperative_sleep _ 5 7) rfl
      ⟨rfl, fun _ ha => by cases ha⟩
  obtain ⟨v', hlate⟩ := execute_lateWork
  rw [hexecute] at hlate
  cases hlate
  obtain ⟨hcancelled, hended⟩ := (hschedules parties st hschedule).1.timedOut _ hleft
  obtain ⟨reason, -, hreason⟩ := hcancelled.recorded
  rw [← htokens] at hreason
  refine ⟨v, parties, st, hexecute, hschedule, hleft, hended 7 rfl, ?_, ?_⟩
  · rw [htokens]
    exact hcancelled.raised
  · rw [hreason]
    cases reason <;> rfl

end TimeBound

end Gauge
