import Gauge.Proofs.Suite.Cause

/-!
# What a suite keeps when its deadline passes

The deadline of a suite passes while the channel is empty, but the worker goes on until the suite is
cancelled.  Of the outcomes that it sends in between the controller takes one; every other method
counts as one that has not answered.

## Main definitions

* `Suite.GoesOn` — the moves after a deadline.
* `Suite.Kept` — what has become of the outcomes that were sent before the suite is cancelled.

## Main statements

* `Suite.Moves.kept` — every move takes at most the first of these outcomes.
* `Suite.keeps_one_sent` — what a suite reports after its deadline.
-/

namespace Gauge

namespace Suite

variable {κ : Type}

/-- The moves from a state of a suite to another one.  The grace period does not end while there is
an outcome to take that was sent before. -/
inductive GoesOn [Device κ] (s : Suite κ) (token : Token) (st : Progress κ) : Progress κ → Prop
  | stay : GoesOn s token st st
  | move {mover st' st''} (h : GoesOn s token st st') (hmove : s.Moves token st' mover st'')
      (hprompt : mover = .clock → st.channel = []) : GoesOn s token st st''

variable [Device κ] {s : Suite κ} {token : Token} {tokens : Tokens} {mover : Mover}
  {movers : List Mover} {st st' st'' : Progress κ}

/-- What goes on from a state of a suite is a state of it. -/
theorem GoesOn.schedule (h : s.GoesOn tokens.root.1 st st') (hst : s.Schedule tokens movers st) :
    ∃ movers', s.Schedule tokens (movers ++ movers') st' := by
  induction h with
  | stay => exact ⟨[], by rwa [List.append_nil]⟩
  | @move mover _ _ _ hmove _ ih =>
    obtain ⟨movers', hst'⟩ := ih
    refine ⟨movers' ++ [mover], ?_⟩
    rw [← List.append_assoc]
    exact hst'.move hmove

/-- The controller can always move on. -/
theorem GoesOn.go (h : s.GoesOn token st st') (hmove : s.Moves token st' .controller st'') :
    s.GoesOn token st st'' :=
  h.move hmove fun he => by cases he

/-- Between a state after the deadline and a later one: the outcomes that had been sent are still in
the channel, or the first of them was reported and all other methods have not answered. -/
structure Kept (s : Suite κ) (st st' : Progress κ) : Prop where
  timedOut : st'.timedOut
  receiving : st'.controller.Receiving →
    st'.controller ≠ .waiting ∧ st'.outcomes = st.outcomes ∧ st.channel <+: st'.channel
  closed : ¬ st'.controller.Receiving → ∃ o, (∀ first ∈ st.channel.head?, o = first) ∧
    st'.outcomes ++ (s.methods.drop st'.outcomes.length).map (s.unanswered true) =
      st.outcomes ++ o :: (s.methods.drop (st.outcomes.length + 1)).map (s.unanswered true)

omit [Device κ] in
/-- The moves of the worker only add to the channel. -/
theorem Kept.work (h : s.Kept st st') (hcontroller : st''.controller = st'.controller)
    (houtcomes : st''.outcomes = st'.outcomes) (htimedOut : st''.timedOut = st'.timedOut)
    (hchannel : st'.channel <+: st''.channel) : s.Kept st st'' where
  timedOut := by
    rw [htimedOut]
    exact h.timedOut
  receiving hreceiving := by
    rw [hcontroller] at hreceiving ⊢
    obtain ⟨hwaiting, hsame, hprefix⟩ := h.receiving hreceiving
    exact ⟨hwaiting, houtcomes.trans hsame, hprefix.trans hchannel⟩
  closed hclosed := by
    rw [hcontroller] at hclosed
    rw [houtcomes]
    exact h.closed hclosed

omit [Device κ] in
/-- The last outcome that the controller takes is the first one that was sent. -/
theorem Kept.close {o : MethodOutcome} (h : s.Kept st st') (hreceiving : st'.controller.Receiving)
    (hfirst : ∀ first ∈ st.channel.head?, o = first) (channel : List MethodOutcome) :
    s.Kept st ({ st' with controller := .filling, channel := channel }.report o) where
  timedOut := h.timedOut
  receiving hc := absurd hc id
  closed _ := by
    refine ⟨o, hfirst, ?_⟩
    obtain ⟨-, hsame, -⟩ := h.receiving hreceiving
    simp [hsame]

/-- **Every move** takes at most the first of the outcomes that were sent before. -/
theorem Moves.kept (h : s.Moves token st' mover st'') (hprompt : mover = .clock → st.channel = [])
    (huncancelled : ∀ o ∈ st.channel, o.status ≠ .cancelled) (hst : s.Kept st st') :
    s.Kept st st'' := by
  have hnotWaiting (hcontroller : st'.controller = .waiting) : False :=
    (hst.receiving (by rw [hcontroller]; trivial)).1 hcontroller
  have hnone (o : MethodOutcome) (hchannel : st.channel = []) :
      ∀ first ∈ st.channel.head?, o = first := by
    intro first hfirst
    rw [hchannel] at hfirst
    cases hfirst
  cases h with
  | pass | quit | finish | enter | answer | die | hangUp =>
    exact hst.work rfl rfl rfl (List.prefix_refl _)
  | send => exact hst.work rfl rfl rfl (List.prefix_append _ _)
  | receive hcontroller | complete hcontroller | expire hcontroller | disconnect hcontroller =>
    exact (hnotWaiting hcontroller).elim
  | record hcontroller | raise hcontroller | interrupt hcontroller =>
    obtain ⟨-, hrest⟩ := hst.receiving (by rw [hcontroller]; trivial)
    exact ⟨hst.timedOut, fun _ => ⟨by simp, hrest⟩, fun hclosed => absurd trivial hclosed⟩
  | @late o rest hcontroller hchannel =>
    have hreceiving : st'.controller.Receiving := hcontroller ▸ trivial
    obtain ⟨-, -, hprefix⟩ := hst.receiving hreceiving
    refine hst.close hreceiving (fun first hfirst => ?_) rest
    obtain ⟨sent, hsent⟩ : ∃ sent, st.channel = first :: sent := by
      cases hst : st.channel with
      | nil =>
        rw [hst] at hfirst
        cases hfirst
      | cons a sent =>
        rw [hst] at hfirst
        exact ⟨sent, by rw [Option.some.inj hfirst]⟩
    rw [hsent, hchannel, List.cons_prefix_cons] at hprefix
    rw [← hprefix.1]
    exact if_neg (huncancelled first (by simp [hsent]))
  | graceOver hcontroller => exact hst.close (hcontroller ▸ trivial) (hnone _ (hprompt rfl)) _
  | graceLost hcontroller hchannel =>
    have hreceiving : st'.controller.Receiving := hcontroller ▸ trivial
    obtain ⟨-, -, hprefix⟩ := hst.receiving hreceiving
    rw [hchannel, List.prefix_nil] at hprefix
    exact hst.close hreceiving (hnone _ hprefix) _
  | @fill m hcontroller hmethod =>
    obtain ⟨o, hfirst, hreports⟩ := hst.closed (hcontroller ▸ id)
    refine ⟨hst.timedOut, fun hc => absurd hc (by simp [hcontroller, Controller.Receiving]),
      fun _ => ⟨o, hfirst, Eq.trans ?_ hreports⟩⟩
    obtain ⟨hlt, hm⟩ := List.getElem?_eq_some_iff.1 hmethod
    rw [List.drop_eq_getElem_cons hlt, hm, hst.timedOut]
    simp
  | leave hcontroller => exact ⟨hst.timedOut, fun hc => absurd hc id,
      fun _ => hst.closed (hcontroller ▸ id)⟩

/-- All outcomes that were sent and not received are answers of methods. -/
theorem Sound.channel (h : s.Sound token st) (hreceiving : st.controller.Receiving)
    {o : MethodOutcome} (ho : o ∈ st.channel) :
    o ∈ st.produced ∧ ∃ m ∈ s.methods, s.Answers m o := by
  have hproduced : o ∈ st.produced := by
    rw [← h.delivered.flow hreceiving]
    simp [ho]
  refine ⟨hproduced, ?_⟩
  obtain ⟨hlength, hanswers⟩ := List.forall₂_iff_get.1 h.aligned.answers
  obtain ⟨i, rfl⟩ := List.get_of_mem hproduced
  have hi : i < (s.methods.take st.produced.length).length := by
    rw [hlength]
    exact i.2
  exact ⟨_, List.mem_of_mem_take (List.get_mem _ ⟨i, hi⟩), hanswers i hi i.2⟩

/-- What has become of the outcomes that were sent when the controller is done. -/
theorem GoesOn.kept (h : s.GoesOn tokens.root.1 st st') (hst : s.Sound tokens.root.1 st)
    (hplain : ∀ m ∈ s.methods, m.Plain) (hexpired : st.controller = .expired) : s.Kept st st' := by
  have hreceiving : st.controller.Receiving := hexpired ▸ trivial
  have huncancelled (o : MethodOutcome) (ho : o ∈ st.channel) : o.status ≠ .cancelled :=
    (hst.attributed hplain).produced (hexpired ▸ trivial) o (hst.channel hreceiving ho).1
  induction h with
  | stay =>
    obtain ⟨htimedOut, -⟩ := hst.delivered.short hreceiving (by simp [hexpired])
    exact ⟨htimedOut, fun _ => ⟨by simp [hexpired], rfl, List.prefix_refl _⟩,
      fun hclosed => absurd hreceiving hclosed⟩
  | move _ hmove hprompt ih => exact hmove.kept hprompt huncancelled ih

/-- **After its deadline a suite keeps one outcome of those that were sent before it was cancelled.**
What was received before stays.  Of the outcomes that are in the channel when the controller is
about to cancel, the first one is reported as it is, and all further methods are reported as timed
out without data, whether they have answered or not.  So no completed method is lost exactly if the
channel holds no more than one outcome. -/
theorem keeps_one_sent (hplain : ∀ m ∈ s.methods, m.Plain) (hsincere : ∀ m ∈ s.methods, m.Sincere)
    (h : s.Schedule tokens movers st) (hexpired : st.controller = .expired)
    (hgo : s.GoesOn tokens.root.1 st st') (hdone : st'.controller = .done) :
    st.outcomes ++ st.channel.take 1 <+: st'.outcomes ∧
      st'.outcomes.drop (st.outcomes.length + 1) =
        (s.methods.drop (st.outcomes.length + 1)).map (s.unanswered true) ∧
      (st.outcomes ++ st.channel <+: st'.outcomes ↔ st.channel.length ≤ 1) := by
  have hreceiving : st.controller.Receiving := hexpired ▸ trivial
  obtain ⟨movers', hschedule⟩ := hgo.schedule h
  have hfull : s.methods.length ≤ st'.outcomes.length := hschedule.sound.delivered.full hdone
  obtain ⟨o, hfirst, hreports⟩ := (hgo.kept h.sound hplain hexpired).closed (hdone ▸ id)
  rw [List.drop_eq_nil_of_le hfull, List.map_nil, List.append_nil] at hreports
  have hone : st.outcomes ++ st.channel.take 1 <+: st'.outcomes := by
    rw [hreports, List.prefix_append_right_inj]
    cases hchannel : st.channel with
    | nil => simp
    | cons first sent =>
      rw [hchannel] at hfirst
      simp [hfirst first rfl]
  have hrest : st'.outcomes.drop (st.outcomes.length + 1) =
      (s.methods.drop (st.outcomes.length + 1)).map (s.unanswered true) := by
    rw [hreports, ← List.drop_drop, List.drop_left]
    rfl
  refine ⟨hone, hrest, ?_, fun hlength => ?_⟩
  · -- a second outcome would stand where a method is reported without an answer
    intro hall
    by_contra hlength
    obtain ⟨first, second, sent, hchannel⟩ :
        ∃ first second sent, st.channel = first :: second :: sent := by
      cases hchannel : st.channel with
      | nil => simp [hchannel] at hlength
      | cons first sent =>
        cases sent with
        | nil => simp [hchannel] at hlength
        | cons second sent => exact ⟨first, second, sent, rfl⟩
    obtain ⟨rest, hrest'⟩ := hall
    have hsecond : second ∈ (s.methods.drop (st.outcomes.length + 1)).map (s.unanswered true) := by
      rw [← hrest, ← hrest', hchannel, List.append_assoc, ← List.drop_drop, List.drop_left]
      simp
    obtain ⟨m, -, hm⟩ := List.mem_map.1 hsecond
    obtain ⟨-, m', hmem, child, w, v, hanswer⟩ :=
      h.sound.channel hreceiving (show second ∈ st.channel by simp [hchannel])
    refine Method.status_ne_suiteTimeout (hsincere m' hmem) hanswer ?_
    rw [← hm, status_unanswered, if_pos rfl]
  · rwa [List.take_of_length_le hlength] at hone

/-- A method without collectors that does nothing, once. -/
def bare (name : String) : Method Instrument where
  name := name
  config := { warmup := 0, executions := 1 }
  collectors := []
  factory := .ok default

theorem default_all {P : Action → Prop} (h : P .succeed) : (default : Workload).All P := by
  intro stage hook hhook k
  cases stage with
  | before | after => cases hhook
  | body =>
    cases hhook
    exact h

def twoMethods : Suite Instrument where
  name := "two"
  methods := [bare "first", bare "second"]
  registry := .builtins

theorem plain_twoMethods : ∀ m ∈ twoMethods.methods, m.Plain := by
  simp only [twoMethods, List.forall_mem_cons]
  refine ⟨fun work hwork => ?_, fun work hwork => ?_, by simp⟩
  all_goals
    cases hwork
    exact default_all trivial

theorem sincere_twoMethods : ∀ m ∈ twoMethods.methods, m.Sincere := by
  simp only [twoMethods, List.forall_mem_cons]
  refine ⟨fun work hwork => ?_, fun work hwork => ?_, by simp⟩
  all_goals
    cases hwork
    exact default_all trivial

/-- A state in which the deadline has passed and both methods have passed and were sent. -/
theorem bothSent : ∃ first second movers st,
    first.status = .passed ∧ second.status = .passed ∧ second ≠ first ∧
      twoMethods.Schedule {} movers st ∧ st.controller = .expired ∧ st.outcomes = [] ∧
      st.timedOut ∧ st.channel = [first, second] := by
  obtain ⟨first, v, hfirst, hpassed, -⟩ : ∃ o v, (bare "first").execute twoMethods.registry
      ⟨1, [0]⟩ {} = .ok o v ∧ o.status = .passed ∧ v.clock = 2 :=
    Method.eq_of_statusAt (by decide +kernel)
  obtain ⟨second, u, hsecond, hpassed', -⟩ : ∃ o v, (bare "second").execute twoMethods.registry
      ⟨2, [0]⟩ {} = .ok o v ∧ o.status = .passed ∧ v.clock = 2 :=
    Method.eq_of_statusAt (by decide +kernel)
  have hbegun : twoMethods.Reaches {} (twoMethods.begin {}) := ⟨[], .begin⟩
  have hexpired := ((hbegun.move (.pass rfl rfl)).move (.enter rfl)).move (.expire rfl (by decide))
  have hone := (hexpired.move
    (.answer rfl hfirst fun _ => ⟨fun _ _ => rfl, fun _ ha => by cases ha⟩)).move
    (.send rfl fun he => by cases he)
  have htwo := (((hone.move (.pass rfl rfl)).move (.enter rfl)).move
    (.answer rfl hsecond fun _ => ⟨fun _ _ => rfl, fun _ ha => by cases ha⟩)).move
    (.send rfl fun he => by cases he)
  have hnames : second ≠ first := by
    rintro rfl
    have hsame : "first" = "second" :=
      (Method.name_of_execute hfirst).symm.trans (Method.name_of_execute hsecond)
    exact absurd hsame (by decide)
  obtain ⟨movers, hschedule⟩ := htwo
  exact ⟨first, second, movers, _, hpassed, hpassed', hnames, hschedule, rfl, rfl, rfl, rfl⟩

/-- From such a state the controller takes the first outcome and gives up the second one. -/
theorem goesOn_bothSent {st : Progress Instrument} {first second : MethodOutcome}
    (hexpired : st.controller = .expired) (houtcomes : st.outcomes = []) (htimedOut : st.timedOut)
    (hchannel : st.channel = [first, second]) : ∃ st', twoMethods.GoesOn token st st' ∧
      st'.controller = .done ∧ st'.outcomes =
        [first.relabelled twoMethods.timeout, .suiteTimeout "second" twoMethods.timeout] := by
  have hstart : twoMethods.GoesOn token st st := .stay
  have hgrace := ((hstart.go (.record hexpired)).go (.raise rfl)).go (.interrupt rfl)
  have hlate := hgrace.go (.late rfl hchannel)
  have hsecond : twoMethods.methods[(st.outcomes ++ [first.relabelled twoMethods.timeout]).length]? =
      some (bare "second") := by
    rw [houtcomes]
    rfl
  have hdone := (hlate.go (.fill rfl hsecond)).go (.leave rfl (by simp [twoMethods, houtcomes]))
  refine ⟨_, hdone, rfl, ?_⟩
  simp [houtcomes, htimedOut, unanswered, bare]

/-- Two methods were sent: the first one is kept, and the second one is not. -/
theorem keeps_one_sent_of_two : ∃ first second movers st st',
    twoMethods.Schedule {} movers st ∧ st.controller = .expired ∧
      st.channel = [first, second] ∧ twoMethods.GoesOn ({} : Tokens).root.1 st st' ∧
      st'.controller = .done ∧ [first] <+: st'.outcomes ∧
      st'.outcomes.drop 1 = [.suiteTimeout "second" twoMethods.timeout] ∧
      ¬ [first, second] <+: st'.outcomes := by
  obtain ⟨first, second, movers, st, -, -, -, hschedule, hexpired, houtcomes, htimedOut,
    hchannel⟩ := bothSent
  obtain ⟨st', hgo, hdone, -⟩ := goesOn_bothSent hexpired houtcomes htimedOut hchannel
  obtain ⟨hone, hrest, hall⟩ :=
    keeps_one_sent plain_twoMethods sincere_twoMethods hschedule hexpired hgo hdone
  rw [houtcomes, hchannel] at hone hall
  rw [houtcomes] at hrest
  refine ⟨first, second, movers, st, st', hschedule, hexpired, hchannel, hgo, hdone, hone, hrest,
    fun hboth => ?_⟩
  simpa using hall.1 hboth

/-- A method that has passed and was sent before the suite is cancelled is reported as timed out,
without data. -/
theorem loses_passed_method :
    (∀ m ∈ twoMethods.methods, m.Plain ∧ m.Sincere) ∧ ∃ first second movers st st',
      twoMethods.Schedule {} movers st ∧ st.controller = .expired ∧
        st.channel = [first, second] ∧ second.status = .passed ∧
        twoMethods.GoesOn ({} : Tokens).root.1 st st' ∧ st'.controller = .done ∧
        st'.outcomes = [first, .suiteTimeout "second" twoMethods.timeout] ∧
        second ∉ st'.outcomes := by
  refine ⟨fun m hm => ⟨plain_twoMethods m hm, sincere_twoMethods m hm⟩, ?_⟩
  obtain ⟨first, second, movers, st, hfirst, hsecond, hne, hschedule, hexpired, houtcomes,
    htimedOut, hchannel⟩ := bothSent
  obtain ⟨st', hgo, hdone, hreported⟩ := goesOn_bothSent hexpired houtcomes htimedOut hchannel
  have hkept : first.relabelled twoMethods.timeout = first :=
    if_neg (by rw [hfirst]; exact fun he => by cases he)
  rw [hkept] at hreported
  refine ⟨first, second, movers, st, st', hschedule, hexpired, hchannel, hsecond, hgo, hdone,
    hreported, ?_⟩
  rw [hreported, List.mem_pair]
  rintro (hfirst | hlost)
  · exact hne hfirst
  · rw [hlost] at hsecond
    cases hsecond

end Suite

end Gauge
