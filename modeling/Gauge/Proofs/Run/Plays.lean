import Gauge.Proofs.Run.Script

/-!
# Steps that play a schedule

A step plays calls if it makes them up to the first one that fails, and fails as that one does.  It
may make some more calls then, which close a bracket.  Steps that play can be put together, and the
calls of both are played one after another.

## Main definitions

* `Step.Played` — what is left of a step that has played calls.
* `Step.Plays` — a step that plays calls, unless it is cancelled.

## Main statements

* `Step.Plays.bind` — one step after another.
* `Step.Plays.bind_settle` — a step before another one that closes the bracket.
-/

namespace Gauge

/-! ## Steps that play -/

namespace Step

variable {κ α : Type} {token : Token} {s t u : Session κ} {x y : Step κ Unit} {L M : List Beat}
  {closing : Stage → List Beat} {P Q R F : Session κ → Prop} {r : Except Halt Unit}

/-- What is left of a step that has played calls.  If none of them failed it has answered; otherwise
it has failed as the call did, and the calls that close the bracket have followed. -/
def Played (s : Session κ) (L : List Beat) (closing : Stage → List Beat) (Q F : Session κ → Prop)
    (r : Except Halt Unit) (t : Session κ) : Prop :=
  match (s.work.play L).failure with
  | none =>
    r = .ok () ∧ t.work = (s.work.play L).work ∧
      t.world.beats = s.world.beats ++ (s.work.play L).beats ∧ Q t
  | some (stage, f) =>
    r = .error (.failure f) ∧
      t.world.beats = s.world.beats ++ (s.work.play L).beats ++ closing stage ∧ F t

/-- A step that plays calls from all sessions with `P`, unless the token is cancelled in the end; it
leaves a session with `Q`, or with `F` if a call fails. -/
structure Plays (token : Token) (x : Step κ Unit) (L : List Beat) (closing : Stage → List Beat)
    (P Q F : Session κ → Prop) : Prop where
  onwards : Onwards x
  played : ∀ s, P s → Uncancelled token x s (Played s L closing Q F)

theorem Played.of_ok (h : Played s L closing Q F (.ok ()) t) :
    (s.work.play L).failure = none ∧ t.work = (s.work.play L).work ∧
      t.world.beats = s.world.beats ++ (s.work.play L).beats ∧ Q t := by
  rw [Played] at h
  cases hL : (s.work.play L).failure with
  | none =>
    rw [hL] at h
    exact ⟨rfl, h.2⟩
  | some failed =>
    rw [hL] at h
    cases h.1

theorem Played.of_error {e : Halt} (h : Played s L closing Q F (.error e) t) :
    ∃ stage f, (s.work.play L).failure = some (stage, f) ∧ e = .failure f ∧
      t.world.beats = s.world.beats ++ (s.work.play L).beats ++ closing stage ∧ F t := by
  rw [Played] at h
  cases hL : (s.work.play L).failure with
  | none =>
    rw [hL] at h
    cases h.1
  | some failed =>
    obtain ⟨stage, f⟩ := failed
    rw [hL] at h
    exact ⟨stage, f, rfl, Except.error.inj h.1, h.2⟩

theorem played_of_ok (hL : (s.work.play L).failure = none) (hwork : t.work = (s.work.play L).work)
    (hbeats : t.world.beats = s.world.beats ++ (s.work.play L).beats) (hQ : Q t) :
    Played s L closing Q F (.ok ()) t := by
  rw [Played, hL]
  exact ⟨rfl, hwork, hbeats, hQ⟩

theorem played_of_error {stage : Stage} {f : Failure}
    (hL : (s.work.play L).failure = some (stage, f))
    (hbeats : t.world.beats = s.world.beats ++ (s.work.play L).beats ++ closing stage) (hF : F t) :
    Played s L closing Q F (.error (.failure f)) t := by
  rw [Played, hL]
  exact ⟨rfl, hbeats, hF⟩

/-- One call, with the answer that it gives. -/
theorem played_of_call {stage : Stage} {failure : Option Failure} {beats : List Beat}
    (hplay : s.work.play L =
      { beats := beats, work := t.work, failure := failure.map (stage, ·) })
    (hbeats : t.world.beats = s.world.beats ++ beats) (hQ : Q t) (hF : F t) :
    Played s L (fun _ => []) Q F (answerOf failure) t := by
  cases failure with
  | none => exact played_of_ok (by rw [hplay]; rfl) (by rw [hplay]) (by rw [hplay, hbeats]) hQ
  | some f => exact played_of_error (by rw [hplay]; rfl) (by rw [hplay, hbeats]; simp) hF

theorem Played.append_ok {closing' : Stage → List Beat} {F' : Session κ → Prop}
    (hx : Played s L closing' Q F' (.ok ()) t) (hy : Played t M closing R F r u) :
    Played s (L ++ M) closing R F r u := by
  obtain ⟨hL, hwork, hbeats, -⟩ := hx.of_ok
  cases r with
  | ok _ =>
    obtain ⟨hM, hwork', hbeats', hR⟩ := hy.of_ok
    rw [hwork] at hM hwork' hbeats'
    refine played_of_ok ?_ ?_ ?_ hR
    · simp only [Workload.play_append, hL, hM]
    · simp only [Workload.play_append, hL, hwork']
    · simp only [Workload.play_append, hL, hbeats', hbeats, List.append_assoc]
  | error e =>
    obtain ⟨stage, f, hM, rfl, hbeats', hF⟩ := hy.of_error
    rw [hwork] at hM hbeats'
    have hLM : (s.work.play (L ++ M)).failure = some (stage, f) := by
      simp only [Workload.play_append, hL, hM]
    refine played_of_error hLM ?_ hF
    simp only [Workload.play_append, hL, hbeats', hbeats, List.append_assoc]

/-- After a call that fails the rest of a schedule is not played. -/
theorem Played.append_error {e : Halt} (hx : Played s L closing Q F (.error e) t) (M : List Beat)
    (R : Session κ → Prop) : Played s (L ++ M) closing R F (.error e) t := by
  obtain ⟨stage, f, hL, rfl, hbeats, hF⟩ := hx.of_error
  have hLM : (s.work.play (L ++ M)).failure = some (stage, f) := by
    simp only [Workload.play_append, hL]
  refine played_of_error hLM ?_ hF
  simp only [Workload.play_append, hL, hbeats]

/-- What is heard of a step that plays. -/
theorem Played.beats (h : Played s L closing Q F r t) :
    t.world.beats = s.world.beats ++ (s.work.play L).heard closing := by
  cases r with
  | ok _ =>
    obtain ⟨hL, -, hbeats, -⟩ := h.of_ok
    simp [hbeats, Performance.heard, Performance.failedIn, hL]
  | error e =>
    obtain ⟨stage, f, hL, -, hbeats, -⟩ := h.of_error
    simp [hbeats, Performance.heard, Performance.failedIn, hL]

/-- What closes the bracket matters for the stages of the calls only. -/
theorem Played.mono {closing' : Stage → List Beat} (h : Played s L closing Q F r t)
    (hQ : Q t → R t) {F' : Session κ → Prop} (hF : F t → F' t)
    (hclosing : ∀ stage, .hook stage ∈ L → closing' stage = closing stage) :
    Played s L closing' R F' r t := by
  cases r with
  | ok _ =>
    obtain ⟨hL, hwork, hbeats, hq⟩ := h.of_ok
    exact played_of_ok hL hwork hbeats (hQ hq)
  | error e =>
    obtain ⟨stage, f, hL, rfl, hbeats, hf⟩ := h.of_error
    refine played_of_error hL ?_ (hF hf)
    rw [hclosing stage (Workload.mem_of_failure hL)]
    exact hbeats

theorem plays_pure : Plays token (pure ()) [] closing P P F :=
  ⟨onwards_pure (), fun _ hs _ => played_of_ok rfl rfl (List.append_nil _).symm hs⟩

/-- One step after another plays the calls of both. -/
theorem Plays.bind (hx : Plays token x L closing P Q F) (hy : Plays token y M closing Q R F) :
    Plays token (x >>= fun _ => y) (L ++ M) closing P R F := by
  refine ⟨hx.onwards.bind fun _ => hy.onwards, fun s hs => ?_⟩
  refine (hx.played s hs).bind (fun _ => hy.onwards) (fun _ t ht => ?_)
    fun e t ht => ht.append_error M R
  exact (hy.played t ht.of_ok.2.2.2).mono fun r u hu => ht.append_ok hu

/-- A settled step before another one: where a call fails, the other step closes the bracket with
some calls, and fails as well. -/
theorem Plays.bind_settle {f : Except Failure Unit → Step κ Unit} {F' : Session κ → Prop}
    (hx : Plays token x L (fun _ => []) P Q F) (hy : Plays token (f (.ok ())) M closing Q R F')
    (honwards : ∀ r, Onwards (f r))
    (hclose : ∀ failure stage t, F t → .hook stage ∈ L → Yields (f (.error failure)) t fun r u =>
      r = .error (.failure failure) ∧ u.world.beats = t.world.beats ++ closing stage ∧ F' u) :
    Plays token (settle x >>= f) (L ++ M) closing P R F' := by
  refine ⟨(onwards_settle hx.onwards).bind honwards, ?_⟩
  intro s hs
  refine (hx.played s hs).bind_settle honwards (fun _ t ht => ?_) fun e t ht => ?_
  · exact (hy.played t ht.of_ok.2.2.2).mono fun r u hu => ht.append_ok hu
  · obtain ⟨stage, f, hL, rfl, hbeats, hF⟩ := ht.of_error
    have hmem := Workload.mem_of_failure hL
    refine ⟨f, rfl, (hclose f stage t hF hmem).mono ?_⟩
    intro r u hu _
    obtain ⟨rfl, hbeats', hF'⟩ := hu
    have hclosed : Played s L closing R F' (.error (.failure f)) u := by
      refine played_of_error hL ?_ hF'
      rw [hbeats', hbeats, List.append_nil]
    exact hclosed.append_error M R

/-- A step that calls collectors only. -/
theorem plays_collectors {names : List String} {call : Call} (honwards : Onwards x)
    (h : ∀ s, P s → Yields x s fun r t => r = .ok () ∧ t.work = s.work ∧
      t.world.beats = s.world.beats ++ names.map (.collector call) ∧ Q t) :
    Plays token x (names.map (.collector call)) closing P Q F := by
  refine ⟨honwards, fun s hs => (h s hs).mono fun r t ht _ => ?_⟩
  obtain ⟨hr, hwork, hbeats, hQ⟩ := ht
  have hplay := s.work.play_map_collector call names
  rw [hr]
  exact played_of_ok (by rw [hplay]) (by rw [hplay, hwork]) (by rw [hplay, hbeats]) hQ

theorem Plays.mono {P' Q' F' : Session κ → Prop} {closing' : Stage → List Beat}
    (h : Plays token x L closing P Q F) (hP : ∀ s, P' s → P s) (hQ : ∀ s, Q s → Q' s)
    (hF : ∀ s, F s → F' s) (hclosing : ∀ stage, .hook stage ∈ L → closing' stage = closing stage) :
    Plays token x L closing' P' Q' F' :=
  ⟨h.onwards, fun s hs => (h.played s (hP s hs)).mono fun _ t ht =>
    ht.mono (hQ t) (hF t) hclosing⟩

/-- A step that looks at its run first. -/
theorem plays_theRun {f : Run κ → Step κ Unit} (honwards : ∀ run, Onwards (f run))
    (h : ∀ s, P s → Plays token (f s.run) L closing P Q F) :
    Plays token (theRun >>= f) L closing P Q F :=
  ⟨onwards_theRun.bind honwards, fun s hs => .of_theRun ((h s hs).played s hs)⟩

theorem plays_exists {ι : Type} [Nonempty ι] {P : ι → Session κ → Prop}
    (h : ∀ i, Plays token x L closing (P i) Q F) :
    Plays token x L closing (fun s => ∃ i, P i s) Q F := by
  obtain ⟨i⟩ := ‹Nonempty ι›
  exact ⟨(h i).onwards, fun s ⟨j, hs⟩ => (h j).played s hs⟩

end Step

end Gauge
