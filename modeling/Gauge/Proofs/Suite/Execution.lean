import Gauge.Proofs.Suite.Reports

/-!
# The schedule of a suite in virtual time

A suite that is executed in a world goes through one of the schedules of its two threads: the clock
of the world says when the deadline passes.

## Main definitions

* `World.Watched` — before a deadline nobody touches the token of a suite.
* `Suite.Ends` — a schedule ends with given outcomes.

## Main statements

* `World.kept_watched` — a run keeps the token of its suite as it is.
* `Suite.ends_execute` — the outcomes of a suite are those of a schedule.
-/

namespace Gauge

/-! ## What methods leave alone -/

namespace Tokens

/-- Cancellations of other cells leave a cell as it is. -/
theorem cell_afterAlarms_of_ne {s : Tokens} {alarms : List Alarm} {i : Nat}
    (h : ∀ a ∈ alarms, a.token.cell ≠ i) : (s.afterAlarms alarms).cell i = s.cell i := by
  induction alarms generalizing s with
  | nil => rfl
  | cons a alarms ih =>
    exact (ih fun b hb => h b (List.mem_cons_of_mem _ hb)).trans
      (cell_cancel_of_ne (h a List.mem_cons_self) a.scope)

end Tokens

namespace World

variable {ε : Type} {w v : World ε} {token : Token} {count cell deadline : Nat}

/-- Before a deadline nobody touches a cell, and all alarms are for tokens that there are. -/
structure Watched (count cell deadline : Nat) (w : World ε) : Prop where
  size : w.tokens.cells.size = count
  clean : w.clock < deadline → w.tokens.cell cell = {}
  known : ∀ a ∈ w.alarms, a.token.cell < count
  due : ∀ a ∈ w.alarms, a.token.cell = cell → deadline ≤ a.due

theorem kept_watched (count cell deadline : Nat) :
    Kept (Watched (ε := ε) count cell deadline) where
  quiet w v hw hclock htokens halarms := by
    refine ⟨?_, ?_, ?_, ?_⟩
    · rw [htokens]
      exact hw.size
    · rw [hclock, htokens]
      exact hw.clean
    · rw [halarms]
      exact hw.known
    · rw [halarms]
      exact hw.due
  pass w now hw := by
    simp only [passUntil, List.partition_eq_filter_filter, foldl_ring]
    refine ⟨?_, fun hclock => ?_, fun a ha => hw.known a (List.mem_filter.1 ha).1,
      fun a ha => hw.due a (List.mem_filter.1 ha).1⟩
    · rw [Tokens.size_afterAlarms]
      exact hw.size
    · dsimp only at hclock ⊢
      rw [Tokens.cell_afterAlarms_of_ne fun a ha hcell => ?_]
      · exact hw.clean (lt_of_le_of_lt (le_max_left _ _) hclock)
      · obtain ⟨hmem, hdue⟩ := List.mem_filter.1 ha
        have hlate := hw.due a hmem hcell
        have hnow := lt_of_le_of_lt (le_max_right _ _) hclock
        simp only [decide_eq_true_eq] at hdue
        omega

namespace Watched

theorem cancel (h : Watched count cell deadline w) (hcell : token.cell ≠ cell) (scope : Scope) :
    Watched count cell deadline { w with tokens := w.tokens.cancel token scope } where
  size := (Tokens.size_cancel _ _ _).trans h.size
  clean hclock := (Tokens.cell_cancel_of_ne hcell scope).trans (h.clean hclock)
  known := h.known
  due := h.due

theorem setAlarm (h : Watched count cell deadline w) {a : Alarm} (hknown : a.token.cell < count)
    (hdue : a.token.cell = cell → deadline ≤ a.due) :
    Watched count cell deadline (w.setAlarm a) := by
  refine ⟨h.size, h.clean, fun b hb => ?_, fun b hb => ?_⟩
  · rcases mem_setAlarm hb with rfl | hb
    · exact hknown
    · exact h.known b hb
  · rcases mem_setAlarm hb with rfl | hb
    · exact hdue
    · exact h.due b hb

theorem clearAlarm (h : Watched count cell deadline w) (a : Alarm) :
    Watched count cell deadline (w.clearAlarm a) where
  size := h.size
  clean := h.clean
  known b hb := h.known b (List.mem_of_mem_erase hb)
  due b hb := h.due b (List.mem_of_mem_erase hb)

theorem leaves {u : World ε} (h : Watched count cell deadline u)
    (hleaves : TimeBound.Leaves w u v) : Watched count cell deadline v where
  size := hleaves.tokens ▸ h.size
  clean := by
    rw [hleaves.clock, hleaves.tokens]
    exact h.clean
  known a ha := h.known a (hleaves.alarms ha)
  due a ha := h.due a (hleaves.alarms ha)

end Watched

end World

namespace Method

variable {κ : Type} [Device κ] {m : Method κ} {registry : Registry κ} {token : Token}
  {w : World (Event κ)} {count cell deadline : Nat}

/-- A method does not touch the token of its suite, and it does not fail. -/
theorem watched_execute (hw : w.Watched count cell deadline) (hknown : token.cell < count)
    (hcell : token.cell ≠ cell) :
    Yields (m.execute registry token) w fun r v =>
      v.Watched count cell deadline ∧ ∀ f, r ≠ .error (.failure f) := by
  refine yields_execute (fun _ _ => ⟨hw, fun _ he => by cases he⟩)
    (fun _ _ => ⟨hw, fun _ he => by cases he⟩) fun run workload _ _ => ?_
  have hkept := World.kept_watched (ε := Event κ) count cell deadline
  have hbegun : (m.bound.begun token w).Watched count cell deadline :=
    TimeBound.begun_of_setAlarm hkept (hw.setAlarm hknown fun he => absurd he hcell)
  have hwork := keeps_work hkept (fun _ scope h => h.cancel hcell scope) run workload hbegun
  refine (TimeBound.yields_execute hwork).mono ?_
  rintro r v ⟨r', u, hu, hreports, hleaves⟩
  have hv := hu.leaves hleaves
  cases hreports with
  | abandoned => exact ⟨hv, fun _ he => by cases he⟩
  | finished | late | panicked | failed | never => exact fun _ => ⟨hv, fun _ he => by cases he⟩

end Method

def Ending.expired : Ending → Bool
  | deadline _ => true
  | _ => false

namespace Suite

variable {κ : Type} [Device κ] {s : Suite κ} {tokens : Tokens} {st st' : Progress κ}
  {mover : Mover} {m : Method κ} {ms : List (Method κ)} {child : Token} {o : MethodOutcome}
  {w v : World (Event κ)}

/-! ## Ends of schedules -/

/-- A state that some schedule leads to. -/
def Reaches (s : Suite κ) (tokens : Tokens) (st : Progress κ) : Prop :=
  ∃ movers, s.Schedule tokens movers st

theorem Reaches.move (h : s.Reaches tokens st) (hmove : s.Moves tokens.root.1 st mover st') :
    s.Reaches tokens st' :=
  h.elim fun movers hschedule => ⟨movers ++ [mover], hschedule.move hmove⟩

/-- A schedule ends with outcomes. -/
def Ends (s : Suite κ) (tokens : Tokens) (outcomes : List MethodOutcome) (timedOut : Bool) : Prop :=
  ∃ st, s.Reaches tokens st ∧ st.controller = .done ∧ st.outcomes = outcomes ∧
    st.timedOut = timedOut

omit [Device κ] in
theorem rest_report (hrest : s.methods.drop st.outcomes.length = m :: ms) (o : MethodOutcome) :
    s.methods.drop (st.report o).outcomes.length = ms := by
  rw [Progress.report_outcomes, List.length_append, List.length_singleton, ← List.drop_drop, hrest]
  rfl

namespace Reaches

/-- The controller fills in what is left. -/
theorem ends_of_filling (h : s.Reaches tokens st) (hfilling : st.controller = .filling)
    (hrest : s.methods.drop st.outcomes.length = ms) :
    s.Ends tokens (st.outcomes ++ ms.map (s.unanswered st.timedOut)) st.timedOut := by
  induction ms generalizing st with
  | nil =>
    exact ⟨_, h.move (.leave hfilling (List.drop_eq_nil_iff.1 hrest)), rfl, by simp, rfl⟩
  | cons m ms ih =>
    have hfill := ih (h.move (.fill hfilling (getElem?_of_drop hrest))) hfilling
      (rest_report hrest _)
    simpa using hfill

/-- The deadline passes, and the controller cancels the suite and the method that is running. -/
theorem inGrace (h : s.Reaches tokens st) (hwaiting : st.controller = .waiting)
    (hrest : s.methods.drop st.outcomes.length = m :: ms) :
    ∃ st', s.Reaches tokens st' ∧ st'.controller = .inGrace ∧ st'.timedOut ∧
      st'.worker = st.worker ∧ st'.channel = st.channel ∧ st'.outcomes = st.outcomes ∧
      ∀ child, st.inFlight = some child → child.cell < st.tokens.cells.size →
        st'.tokens.reason? child ≠ none := by
  have hshort := (List.getElem?_eq_some_iff.1 (getElem?_of_drop hrest)).1
  refine ⟨_, (((h.move (.expire hwaiting hshort)).move (.record rfl)).move (.raise rfl)).move
    (.interrupt rfl), rfl, rfl, rfl, rfl, rfl, fun child hchild hsize => ?_⟩
  simp only [hchild]
  intro hnone
  have hreason := List.findSome?_eq_none_iff.1 hnone child.cell List.mem_cons_self
  rw [Tokens.cell_cancel_self _ (by simpa [Tokens.record, Tokens.raise] using hsize)] at hreason
  simp at hreason

/-- No outcome arrives after the deadline. -/
theorem ends_without (h : s.Reaches tokens st) (hwaiting : st.controller = .waiting)
    (hrest : s.methods.drop st.outcomes.length = m :: ms) :
    s.Ends tokens (st.outcomes ++ (m :: ms).map (s.unanswered true)) true := by
  obtain ⟨st', h', hgrace, htimedOut, -, -, houtcomes, -⟩ := h.inGrace hwaiting hrest
  rw [← houtcomes] at hrest ⊢
  have hover := (h'.move (.graceOver hgrace (getElem?_of_drop hrest))).ends_of_filling rfl
    (rest_report hrest _)
  simpa [htimedOut, relabelled_suiteTimeout, unanswered] using hover

/-- The method that was running answers after the deadline. -/
theorem ends_late (h : s.Reaches tokens st) (hwaiting : st.controller = .waiting)
    (hrest : s.methods.drop st.outcomes.length = m :: ms)
    (hworker : st.worker = .running m ms child) (hchannel : st.channel = [])
    (hinFlight : st.inFlight = some child) (hknown : child.cell < st.tokens.cells.size)
    (hanswer : m.execute s.registry child w = .ok o v) :
    s.Ends tokens (st.outcomes ++ o.relabelled s.timeout :: ms.map (s.unanswered true)) true := by
  obtain ⟨st', h', hgrace, htimedOut, hworker', hchannel', houtcomes, hreason⟩ :=
    h.inGrace hwaiting hrest
  have hanswered := h'.move (.answer (hworker'.trans hworker) hanswer fun hnone =>
    absurd hnone (hreason child hinFlight hknown))
  have hsent := hanswered.move (.send rfl (by simp [hgrace]))
  rw [← houtcomes] at hrest ⊢
  have harrived : st'.channel ++ [o] = [o] := by rw [hchannel', hchannel, List.nil_append]
  have hlate := (hsent.move (.late hgrace harrived)).ends_of_filling rfl (rest_report hrest _)
  simpa [htimedOut] using hlate

/-- The worker is lost before the deadline. -/
theorem ends_lost {p : Panic} (h : s.Reaches tokens st) (hwaiting : st.controller = .waiting)
    (hrest : s.methods.drop st.outcomes.length = m :: ms)
    (hworker : st.worker = .running m ms child) (hchannel : st.channel = [])
    (htimedOut : st.timedOut = false)
    (hpanic : m.execute s.registry child w = .error (.panic p) v) :
    s.Ends tokens (st.outcomes ++ (m :: ms).map (s.unanswered false)) false := by
  have hshort := (List.getElem?_eq_some_iff.1 (getElem?_of_drop hrest)).1
  have hlost := ((h.move (.die hworker hpanic)).move
    (.disconnect hwaiting hshort hchannel rfl)).ends_of_filling rfl hrest
  simpa [htimedOut] using hlost

/-- The outcome of a method is received before the deadline. -/
theorem answered (h : s.Reaches tokens st) (hwaiting : st.controller = .waiting)
    (hrest : s.methods.drop st.outcomes.length = m :: ms)
    (hworker : st.worker = .running m ms child) (hchannel : st.channel = [])
    (hanswer : m.execute s.registry child w = .ok o v) (hundisturbed : w.Undisturbed child v) :
    s.Reaches tokens { st with
      worker := .checking ms, channel := [], told := st.told ++ [o],
      outcomes := st.outcomes ++ [o], produced := st.produced ++ [o] } := by
  have hshort := (List.getElem?_eq_some_iff.1 (getElem?_of_drop hrest)).1
  have hanswered := h.move (.answer hworker hanswer fun _ => hundisturbed)
  have hsent := hanswered.move (.send rfl (by simp [hwaiting]))
  have harrived : st.channel ++ [o] = [o] := by rw [hchannel, List.nil_append]
  exact hsent.move (.receive hwaiting hshort harrived)

end Reaches

/-! ## The schedule of a world -/

omit [Device κ] in
theorem fillIn_without (s : Suite κ) (ms : List (Method κ)) :
    fillIn s.timeout (.deadline none) (ms.map (·.name)) = ms.map (s.unanswered true) := by
  cases ms with
  | nil => rfl
  | cons m ms => simp [fillIn, relabelled_suiteTimeout, unanswered]

omit [Device κ] in
theorem fillIn_late (s : Suite κ) (o : MethodOutcome) (m : Method κ) (ms : List (Method κ)) :
    fillIn s.timeout (.deadline (some o)) ((m :: ms).map (·.name)) =
      o.relabelled s.timeout :: ms.map (s.unanswered true) := by
  simp [fillIn, unanswered]

omit [Device κ] in
theorem fillIn_lost (s : Suite κ) (ms : List (Method κ)) :
    fillIn s.timeout .workerGone (ms.map (·.name)) = ms.map (s.unanswered false) := by
  simp [fillIn, unanswered]

/-- A schedule has come to where the work of a suite goes on in a world. -/
structure Meets (s : Suite κ) (token : Token) (deadline : Nat) (ms : List (Method κ))
    (st : Progress κ) (w : World (Event κ)) : Prop where
  worker : st.worker = .checking ms
  controller : st.controller = .waiting
  channel : st.channel = []
  timedOut : st.timedOut = false
  rest : s.methods.drop st.outcomes.length = ms
  size : st.tokens.cells.size = w.tokens.cells.size
  known : token.cell < w.tokens.cells.size
  clean : w.tokens.cell token.cell = {}
  watched : w.Watched w.tokens.cells.size token.cell deadline

theorem yields_newChild {ε : Type} {parent : Token} {w : World ε}
    {Q : Except Halt Token → World ε → Prop} :
    Yields (World.newChild parent) w Q ↔
      Q (.ok (w.tokens.child parent).1) { w with tokens := (w.tokens.child parent).2 } := Iff.rfl

/-- The alarm of a suite for the method that it begins. -/
def childAlarm (token : Token) (deadline : Nat) (w : World (Event κ)) : Alarm where
  due := deadline
  token := (w.tokens.child token).1
  scope := .suite

/-- The world in which a method of a suite begins. -/
def entered (token : Token) (deadline : Nat) (w : World (Event κ)) : World (Event κ) :=
  { w with tokens := (w.tokens.child token).2 }.setAlarm (childAlarm token deadline w)

namespace Meets

variable {token : Token} {deadline : Nat}

omit [Device κ] in
theorem watched_entered (h : s.Meets token deadline ms st w) :
    (entered token deadline w).Watched (w.tokens.cells.size + 1) token.cell deadline := by
  have hfresh : World.Watched (w.tokens.cells.size + 1) token.cell deadline
      { w with tokens := (w.tokens.child token).2 } :=
    ⟨by simp [Tokens.child], fun _ => (w.tokens.cell_push _).trans h.clean,
      fun a ha => Nat.lt_succ_of_lt (h.watched.known a ha), h.watched.due⟩
  exact hfresh.setAlarm (Nat.lt_succ_self _) fun _ => le_rfl

omit [Device κ] in
/-- Before the deadline nobody disturbs the method that has begun. -/
theorem undisturbed_entered (h : s.Meets token deadline ms st w) (habove : token.above = [])
    (htime : v.clock < deadline) :
    (entered token deadline w).Undisturbed (w.tokens.child token).1 v := by
  have hpath : ∀ i ∈ (w.tokens.child token).1.path, i = w.tokens.cells.size ∨ i = token.cell := by
    intro i hi
    simpa [Tokens.child, Token.path, habove] using hi
  refine ⟨fun i hi => (w.tokens.cell_push i).trans ?_, fun a ha hdue hi => ?_⟩
  · rcases hpath i hi with rfl | rfl
    · exact w.tokens.cell_size
    · exact h.clean
  · rcases World.mem_setAlarm ha with rfl | ha
    · exact absurd (lt_of_le_of_lt hdue htime) (lt_irrefl _)
    · rcases hpath _ hi with hcell | hcell
      · exact absurd (h.watched.known a ha) (by rw [hcell]; exact lt_irrefl _)
      · have := h.watched.due a ha hcell
        omega

omit [Device κ] in
/-- The token that is made for a method is the one of the schedule. -/
theorem child_eq (h : s.Meets token deadline ms st w) :
    (st.tokens.child token).1 = (w.tokens.child token).1 := by
  simp only [Tokens.child, h.size]

/-- The worker begins with the next method. -/
theorem reaches_entered (h : s.Meets tokens.root.1 deadline (m :: ms) st w)
    (hreaches : s.Reaches tokens st) :
    s.Reaches tokens { st with
      tokens := (st.tokens.child tokens.root.1).2
      inFlight := some (w.tokens.child tokens.root.1).1
      worker := .running m ms (w.tokens.child tokens.root.1).1 } := by
  obtain ⟨movers, hschedule⟩ := hreaches
  have hlive := hschedule.sound.untouched.live (h.controller ▸ trivial)
  have hpassed : s.Reaches tokens { st with worker := .starting m ms } :=
    Reaches.move ⟨movers, hschedule⟩ (.pass h.worker hlive)
  exact h.child_eq ▸ hpassed.move (.enter rfl)

omit [Device κ] in
/-- The suite goes on with the next method. -/
theorem next (h : s.Meets token deadline (m :: ms) st w)
    (hv : v.Watched (w.tokens.cells.size + 1) token.cell deadline) (htime : v.clock < deadline)
    (o : MethodOutcome) :
    s.Meets token deadline ms { st with
      tokens := (st.tokens.child token).2, inFlight := some (w.tokens.child token).1,
      worker := .checking ms, channel := [], told := st.told ++ [o],
      outcomes := st.outcomes ++ [o], produced := st.produced ++ [o] }
      (v.clearAlarm (childAlarm token deadline w)) where
  worker := rfl
  controller := h.controller
  channel := rfl
  timedOut := h.timedOut
  rest := rest_report h.rest o
  size := by
    rw [show (v.clearAlarm _).tokens = v.tokens from rfl, hv.size, ← h.size]
    simp [Tokens.child]
  known := hv.size ▸ Nat.lt_succ_of_lt h.known
  clean := hv.clean htime
  watched := by
    rw [show (v.clearAlarm _).tokens = v.tokens from rfl, hv.size]
    exact hv.clearAlarm _

end Meets

/-- **The work of a suite in a world follows a schedule** to its end. -/
theorem yields_work {deadline : Nat} (h : s.Reaches tokens st)
    (hmeets : s.Meets tokens.root.1 deadline ms st w) :
    Yields (s.work tokens.root.1 deadline ms) w fun r _ =>
      ∃ received ending, r = .ok (received, ending) ∧
        s.Ends tokens (st.outcomes ++ received ++
          fillIn s.timeout ending ((ms.map (·.name)).drop received.length)) ending.expired := by
  induction ms generalizing st w with
  | nil =>
    refine ⟨[], .complete, rfl, _, h.move (.complete hmeets.controller
      (List.drop_eq_nil_iff.1 hmeets.rest)), rfl, ?_, hmeets.timedOut⟩
    simp [fillIn]
  | cons m ms ih =>
    have hlive : w.tokens.isCancelled tokens.root.1 = false := by
      refine List.any_eq_false.2 fun i hi => ?_
      rw [List.mem_singleton.1 hi, hmeets.clean]
      exact Bool.false_ne_true
    have hentered := hmeets.reaches_entered h
    have hexecute : Yields (m.execute s.registry (w.tokens.child tokens.root.1).1)
        (entered tokens.root.1 deadline w) fun r v =>
          v.Watched (w.tokens.cells.size + 1) tokens.root.1.cell deadline ∧
            ∀ f, r ≠ .error (.failure f) :=
      Method.watched_execute hmeets.watched_entered (Nat.lt_succ_self _)
        (Nat.ne_of_gt hmeets.known)
    have hwithout : s.Ends tokens (st.outcomes ++ [] ++
        fillIn s.timeout (.deadline none) ((m :: ms).map (·.name))) true := by
      rw [fillIn_without, List.append_nil]
      exact hentered.ends_without hmeets.controller hmeets.rest
    simp only [work, yields_bind, yields_get, hlive, Bool.false_eq_true, if_false, yields_newChild,
      yields_modify]
    refine TimeBound.yields_ending (.intro (fun o v hx => ?_) fun e v hx => ?_)
    · obtain ⟨hv, -⟩ := hexecute.of_ok hx
      by_cases htime : v.clock < deadline
      · simp only [if_pos htime, yields_bind, yields_modify]
        have hanswered := hentered.answered hmeets.controller hmeets.rest rfl hmeets.channel hx
          (hmeets.undisturbed_entered rfl htime)
        refine (ih hanswered (hmeets.next hv htime o)).mono ?_
        rintro r t ⟨received, ending, rfl, hends⟩
        refine ⟨o :: received, ending, rfl, ?_⟩
        simpa using hends
      · simp only [if_neg htime]
        refine ⟨[], .deadline (some o), rfl, ?_⟩
        have hlate := hentered.ends_late hmeets.controller hmeets.rest rfl hmeets.channel rfl
          (by simp [Tokens.child, hmeets.size]) hx
        rw [List.length_nil, List.drop_zero, fillIn_late, List.append_nil]
        exact hlate
    · obtain ⟨-, hfailed⟩ := hexecute.of_error hx
      cases e with
      | failure f => exact absurd rfl (hfailed f)
      | abandoned =>
        by_cases htime : v.clock < deadline
        · simp only [if_pos htime, yields_bind, yields_modify]
          exact ⟨[], .deadline none, rfl, hwithout⟩
        · simp only [if_neg htime]
          exact ⟨[], .deadline none, rfl, hwithout⟩
      | panic p =>
        by_cases htime : v.clock < deadline
        · simp only [if_pos htime, yields_bind, yields_modify]
          refine ⟨[], .workerGone, rfl, ?_⟩
          rw [List.length_nil, List.drop_zero, fillIn_lost, List.append_nil]
          exact hentered.ends_lost hmeets.controller hmeets.rest rfl hmeets.channel
            hmeets.timedOut hx
        · simp only [if_neg htime]
          exact ⟨[], .deadline none, rfl, hwithout⟩

def restful (name : String) : Method Instrument :=
  { name := name, config := {}, factory := .ok default }

end Suite

end Gauge
