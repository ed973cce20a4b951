import Gauge.Instrument
import Gauge.Proofs.Run.Script
import Gauge.Proofs.Store.Recovery

/-!
# What the bracket of an iteration does

While no collector breaks off and every sample can be written, a start, a stop and an abort cannot
fail: they call every collector once, in start order or the reverse, and a stop adds one sample to
the ledger that the store follows.

## Main definitions

* `Device.Steady` — a device that never breaks off.
* `Run.Recordable` — every sample of a run can be written.
* `Session.Tracks` — a session on its way, with the ledger of its store.
* `Session.Heard` — calls of collectors that cannot fail.
* `Session.Called` — a step that cannot fail, and the calls it makes.
* `Session.Sealed` — a session whose store is sealed.

## Main statements

* `Run.called_start`, `Run.called_stop`, `Run.called_abort` — the bracket.
* `Run.yields_finalize_any` — sealing gives up an iteration that is open, and keeps the samples.
-/

namespace Gauge

/-! ## Steady devices -/

namespace Device

variable {κ : Type} [Device κ]

/-- A call makes one device out of another. -/
def Next (d d' : κ) : Prop := ∃ call r, Call.apply call d r = .ok d'

/-- No device that calls make out of this one breaks off. -/
def Steady (d : κ) : Prop :=
  ∀ d', Relation.ReflTransGen Next d d' → ∀ call r p, Call.apply call d' r ≠ .error p

theorem Steady.apply {d : κ} (h : Steady d) (call : Call) (r : Readings) :
    ∃ d', call.apply d r = .ok d' ∧ Steady d' := by
  cases hd : call.apply d r with
  | error p => exact absurd hd (h d .refl call r p)
  | ok d' => exact ⟨d', rfl, fun e he => h e (.head ⟨call, r, hd⟩ he)⟩

end Device

namespace Instrument

/-- Only a playback can be told to break off. -/
def Unbroken : Instrument → Prop
  | playback p => p.breaksAt = none
  | _ => True

instance : DecidablePred Unbroken
  | playback p => inferInstanceAs (Decidable (p.breaksAt = none))
  | summed _ _ => isTrue trivial
  | peakSize _ => isTrue trivial

theorem Unbroken.apply {i : Instrument} (h : i.Unbroken) (call : Call) (r : Readings) :
    ∃ i', call.apply i r = .ok i' ∧ i'.Unbroken := by
  cases i with
  | summed counter a => cases call <;> exact ⟨_, rfl, trivial⟩
  | peakSize size => cases call <;> exact ⟨_, rfl, trivial⟩
  | playback p =>
    cases call with
    | start => exact ⟨_, rfl, h⟩
    | restart =>
      refine ⟨_, rfl, ?_⟩
      change p.restart.breaksAt = none
      rw [Playback.restart]
      split <;> exact h
    | stop =>
      have hbreaks : p.breaksAt = none := h
      have hstop : p.stop = .ok p.advance := by rw [Playback.stop, hbreaks]
      exact ⟨playback p.advance, congrArg (Except.map playback) hstop, h⟩

/-- The devices of the library are steady. -/
theorem Unbroken.steady {i : Instrument} (h : i.Unbroken) : Device.Steady i := by
  intro i' hi'
  have hunbroken : i'.Unbroken := by
    induction hi' with
    | refl => exact h
    | tail _ hnext ih =>
      obtain ⟨call, r, hcall⟩ := hnext
      obtain ⟨i₂, hi₂, hunbroken⟩ := ih.apply call r
      rw [hi₂] at hcall
      exact Except.ok.inj hcall ▸ hunbroken
  intro call r p herror
  obtain ⟨i₂, hi₂, -⟩ := hunbroken.apply call r
  rw [hi₂] at herror
  cases herror

end Instrument

/-! ## Samples of a run -/

namespace Ledger

/-- A sample fits if one with more names does. -/
theorem fits_of_names_sublist {s t : Sample} (h : t.values.names.Sublist s.values.names)
    (hs : Fits s) : Fits t := by
  have hsize (u : Sample) : Archive.size u.toRecord =
      Archive.aligned ((u.values.names.map Archive.outsideSize).sum) +
        Archive.cell * u.values.names.length + Archive.cell := by
    simp only [Archive.size, Archive.rootAt, Archive.entriesAt, Archive.namesSize_eq_sum,
      Sample.toRecord, Named.names, List.map_map, Function.comp_def, List.length_map]
  have houtside : (t.values.names.map Archive.outsideSize).sum ≤
      (s.values.names.map Archive.outsideSize).sum := (h.map _).sum_le_sum fun _ _ => Nat.zero_le _
  have haligned : Archive.aligned ((t.values.names.map Archive.outsideSize).sum) ≤
      Archive.aligned ((s.values.names.map Archive.outsideSize).sum) := by
    rw [Archive.aligned, Archive.aligned]
    omega
  have hlength := Nat.mul_le_mul_left Archive.cell h.length_le
  rw [Fits, Frame.Fits, hsize] at hs ⊢
  omega

/-- Whether a sample fits depends on its names only. -/
theorem fits_of_names_eq {s t : Sample} (h : t.values.names = s.values.names) (hs : Fits s) :
    Fits t :=
  fits_of_names_sublist (h ▸ List.Sublist.refl t.values.names) hs

end Ledger

namespace Run

variable {κ : Type}

/-- The names of the collectors in ascending priority; equal priorities keep their order. -/
def startNames (r : Run κ) : List String :=
  (r.labels.mergeSort fun a b => a.2 ≤ b.2).map (·.1)

/-- The start order lists the collectors by their names. -/
theorem filterMap_startOrder (r : Run κ) :
    (startOrder r.collectors).filterMap (fun i => r.labels[i]?.map (·.1)) = r.startNames := by
  let label (e : Collector κ × Nat) : String × Int32 := (e.1.name, e.1.priority)
  have hlabels : r.labels = r.collectors.zipIdx.map label := by
    rw [labels, ← List.zipIdx_map_fst 0 r.collectors, List.map_map]
    simp [label, Function.comp_def]
  have hsort : (r.collectors.zipIdx.mergeSort fun a b => a.1.priority ≤ b.1.priority).map label =
      r.labels.mergeSort fun a b => a.2 ≤ b.2 := by
    rw [hlabels]
    exact List.map_mergeSort fun _ _ _ _ => rfl
  rw [startNames, ← hsort, startOrder, List.filterMap_map, List.map_map, ← List.filterMap_eq_map]
  refine List.filterMap_congr ?_
  intro e he
  have hmem := List.mem_zipIdx' (List.mem_mergeSort.1 he)
  simp [labels, label, hmem.2, List.getElem?_eq_getElem hmem.1]

variable [Device κ]

theorem names_values (r : Run κ) :
    (values r).names = (NameSet.ofNames (r.labels.map (·.1))).names := by
  rw [values, Named.names_ofList, labels, List.map_map, List.map_map]
  rfl

/-- Every sample of a run can be written: either samples stay in memory, or those with the names of
the collectors fit into a frame. -/
def Recordable (r : Run κ) : Prop :=
  StoreMode.ofPlanned r.config.executions = .spooled → Ledger.Fits ⟨0, values r⟩

end Run

/-! ## A session on its way -/

namespace Session

variable {κ : Type} [Device κ] {s₀ s t : Session κ} {l : Ledger} {collecting : Bool}

omit [Device κ] in
/-- The time that a start notes, in milliseconds. -/
def millis (s : Session κ) : Int64 := Int64.ofNat (s.world.clock / 1000000)

/-- A session that began as `s₀` is on its way: its order is settled, no collector breaks off,
somebody waits for the work for ever, and its store follows a ledger and can take every sample.  The
run counts the samples and is open. -/
structure Tracks (s₀ : Session κ) (l : Ledger) (collecting : Bool) (s : Session κ) : Prop where
  onward : s₀.Onward s
  horizon : s₀.world.horizon = none
  recordable : s₀.run.Recordable
  order : ∃ order, s.run.order = some order ∧
    order.filterMap (fun i => s₀.run.labels[i]?.map (·.1)) = s₀.run.startNames
  collecting : s.run.collecting = collecting
  steady : ∀ c ∈ s.run.collectors, Device.Steady c.device
  store : ∃ w, s.run.store = .writing w ∧ w.Follows l ∧
    w.mode = .ofPlanned s₀.run.config.executions
  fits : StoreMode.ofPlanned s₀.run.config.executions = .spooled → ∀ x ∈ l.samples, Ledger.Fits x
  executions : s.run.executions = l.samples.length
  status : s.run.status = .open

/-- A session stays on its way as long as its run stays. -/
theorem Tracks.of_run_eq (h : Tracks s₀ l collecting s) (hst : s.Onward t) (hrun : t.run = s.run) :
    Tracks s₀ l collecting t where
  onward := h.onward.trans hst
  horizon := h.horizon
  recordable := h.recordable
  order := hrun ▸ h.order
  collecting := hrun ▸ h.collecting
  steady := hrun ▸ h.steady
  store := hrun ▸ h.store
  fits := h.fits
  executions := hrun ▸ h.executions
  status := hrun ▸ h.status

theorem Tracks.world_horizon (h : Tracks s₀ l collecting s) : s.world.horizon = none :=
  h.onward.world.horizon.trans h.horizon

/-- No collector of a session breaks off, and somebody waits for the work for ever. -/
structure Steady (s : Session κ) : Prop where
  horizon : s.world.horizon = none
  devices : ∀ c ∈ s.run.collectors, Device.Steady c.device

/-- Calls of collectors that cannot fail, and what is heard of them. -/
structure Heard (s : Session κ) (beats : List Beat) (r : Except Halt Unit) (t : Session κ) :
    Prop where
  answer : r = .ok ()
  onward : s.Onward t
  steady : t.Steady
  run : t.run = { s.run with collectors := t.run.collectors }
  work : t.work = s.work
  beats : t.world.beats = s.world.beats ++ beats

theorem Tracks.steadily (h : Tracks s₀ l collecting s) : s.Steady := ⟨h.world_horizon, h.steady⟩

/-- A session stays on its way where only its collectors change. -/
theorem Tracks.of_heard {beats : List Beat} {r : Except Halt Unit}
    (h : Tracks s₀ l collecting s) (ht : Heard s beats r t) : Tracks s₀ l collecting t where
  onward := h.onward.trans ht.onward
  horizon := h.horizon
  recordable := h.recordable
  order := by rw [ht.run]; exact h.order
  collecting := by rw [ht.run]; exact h.collecting
  steady := ht.steady.devices
  store := by rw [ht.run]; exact h.store
  fits := h.fits
  executions := by rw [ht.run]; exact h.executions
  status := by rw [ht.run]; exact h.status

/-- A step that cannot fail: it leaves a session on its way, touches neither the workload nor the
mark of a run that stopped early, and is heard by the given calls. -/
structure Called (s₀ : Session κ) (l : Ledger) (collecting : Bool) (s : Session κ)
    (beats : List Beat) (r : Except Halt Unit) (t : Session κ) : Prop where
  answer : r = .ok ()
  tracks : Tracks s₀ l collecting t
  work : t.work = s.work
  early : t.run.earlyStopped = s.run.earlyStopped
  beats : t.world.beats = s.world.beats ++ beats

end Session

/-! ## The bracket -/

namespace Run

open Session Step

variable {κ : Type} [Device κ] {s₀ s : Session κ} {l : Ledger} {collecting : Bool}

/-- One call of a collector, if there is one at the position. -/
theorem heard_callCollector (h : s.Steady) (call : Call) (i : Nat) :
    Yields (callCollector call i) s
      (Heard s (s.run.labels[i]?.map fun e => .collector call e.1).toList) := by
  have hlabel : s.run.labels[i]? = s.run.collectors[i]?.map fun c => (c.name, c.priority) := by
    rw [labels, List.getElem?_map]
  simp only [callCollector, yields_bind, yields_theRun]
  cases hc : s.run.collectors[i]? with
  | none =>
    rw [hc] at hlabel
    exact ⟨rfl, .refl s, h, rfl, rfl, by simp [hlabel]⟩
  | some c =>
    rw [hc] at hlabel
    simp only [yields_bind, yields_inWorld, World.log, yields_modify]
    refine (World.yields_tick _).mono ?_
    intro r w hw
    obtain ⟨hsilent, hanswer⟩ := hw
    rw [hanswer h.horizon]
    have hbeats : w.beats = s.world.beats ++ [.collector call c.name] := by
      rw [hsilent.beats, World.beats_log]
      rfl
    have hquiet : s.Onward { s with world := w } :=
      onward_world ⟨hsilent.horizon, hsilent.cancelled⟩
    obtain ⟨device, hdevice, hsteady⟩ :=
      (h.devices c (List.mem_of_getElem? hc)).apply call w.readings
    simp only [yields_get, hdevice]
    refine ⟨rfl, hquiet.trans (onward_run rfl rfl (labels_set hc device)),
      ⟨hsilent.horizon.trans h.horizon, fun d hd => ?_⟩, rfl, rfl, by simpa [hlabel] using hbeats⟩
    rcases List.mem_or_eq_of_mem_set hd with hmem | rfl
    · exact h.devices d hmem
    · exact hsteady

/-- Calls of collectors, one after another. -/
theorem heard_callCollectors (h : s.Steady) (call : Call) (order : List Nat) :
    Yields (callCollectors call order) s
      (Heard s ((order.filterMap fun i => s.run.labels[i]?.map (·.1)).map (.collector call))) := by
  induction order generalizing s with
  | nil => exact ⟨rfl, .refl s, h, rfl, rfl, by simp⟩
  | cons i order ih =>
    rw [callCollectors_cons, yields_bind]
    refine (heard_callCollector h call i).mono ?_
    intro r t ht
    rw [ht.answer]
    refine (ih ht.steady).mono fun r u hu => ⟨hu.answer, ht.onward.trans hu.onward, hu.steady,
      by rw [hu.run, ht.run], hu.work.trans ht.work, ?_⟩
    rw [hu.beats, ht.beats, ht.onward.labels, List.append_assoc]
    cases hi : s.run.labels[i]? with
    | none => simp [hi]
    | some e => simp [hi]

/-- Calls of collectors leave a session on its way. -/
theorem called_callCollectors (h : Tracks s₀ l collecting s) (call : Call) (order : List Nat) :
    Yields (callCollectors call order) s (Called s₀ l collecting s
      ((order.filterMap fun i => s₀.run.labels[i]?.map (·.1)).map (.collector call))) := by
  refine (heard_callCollectors h.steadily call order).mono fun r t ht => ?_
  rw [h.onward.labels] at ht
  exact ⟨ht.answer, h.of_heard ht, ht.work, by rw [ht.run], ht.beats⟩

def starts (r : Run κ) : List Beat := r.startNames.map (.collector r.mode.call)

def stops (r : Run κ) : List Beat := r.startNames.reverse.map (.collector .stop)

/-- A start calls every collector in start order, and notes the time. -/
theorem called_start (h : Tracks s₀ l false s) :
    Yields (start s₀.run.mode) s
      (Called s₀ (l.perform (.start s.millis)).2 true s s₀.run.starts) := by
  obtain ⟨order, horder, hnames⟩ := h.order
  obtain ⟨w, hstore, hfollows, hmode⟩ := h.store
  simp only [start, yields_bind, yields_theRun, horder, hstore, h.collecting, Bool.false_eq_true,
    if_false]
  simp only [yields_get, yields_modifyRun]
  have hnoted := Writer.follows_perform hfollows (.start s.millis)
  have hnow : Tracks s₀ (l.perform (.start s.millis)).2 false
      { s with run := { s.run with store := .writing (w.noteStart s.millis) } } :=
    { onward := h.onward.trans (onward_run rfl rfl rfl)
      horizon := h.horizon
      recordable := h.recordable
      order := h.order
      collecting := h.collecting
      steady := h.steady
      store := ⟨_, rfl, hnoted.2.1, hnoted.2.2.trans hmode⟩
      fits := h.fits
      executions := h.executions
      status := h.status }
  refine (called_callCollectors hnow s₀.run.mode.call order).mono ?_
  intro r t ht
  rw [ht.answer]
  have hopen : Tracks s₀ (l.perform (.start s.millis)).2 true
      { t with run := { t.run with collecting := true } } :=
    { ht.tracks with
      onward := ht.tracks.onward.trans (onward_run rfl rfl rfl)
      collecting := rfl }
  exact ⟨rfl, hopen, ht.work, ht.early, ht.beats.trans (by rw [hnames]; rfl)⟩

/-- All collectors are called in reverse start order. -/
theorem called_stopCollectors (h : Tracks s₀ l collecting s) :
    Yields stopCollectors s (Called s₀ l false s s₀.run.stops) := by
  obtain ⟨order, horder, hnames⟩ := h.order
  simp only [stopCollectors, yields_bind, yields_theRun, horder, Option.getD_some]
  refine (called_callCollectors h .stop order.reverse).mono ?_
  intro r t ht
  rw [ht.answer]
  have hclosed : Tracks s₀ l false { t with run := { t.run with collecting := false } } :=
    { ht.tracks with
      onward := ht.tracks.onward.trans (onward_run rfl rfl rfl)
      collecting := rfl }
  refine ⟨rfl, hclosed, ht.work, ht.early, ht.beats.trans ?_⟩
  rw [List.filterMap_reverse, hnames]
  rfl

/-- An abort of an open iteration only stops the collectors. -/
theorem called_abort (h : Tracks s₀ l true s) :
    Yields abort s (Called s₀ l false s s₀.run.stops) := by
  simp only [abort, yields_bind, yields_theRun, h.collecting, if_true]
  exact called_stopCollectors h

/-- Where no iteration is open there is nothing to abort. -/
theorem called_abort_closed (h : Tracks s₀ l false s) :
    Yields abort s (Called s₀ l false s []) := by
  simp only [abort, yields_bind, yields_theRun, h.collecting, Bool.false_eq_true, if_false]
  exact ⟨rfl, h, rfl, rfl, by simp⟩

/-- A sample with the values of the collectors fits wherever it has to. -/
theorem fits_values (h : Tracks s₀ l collecting s)
    (hmode : StoreMode.ofPlanned s₀.run.config.executions = .spooled) (start : Int64) :
    Ledger.Fits ⟨start, values s.run⟩ := by
  refine Ledger.fits_of_names_eq (s := ⟨0, values s₀.run⟩) ?_ (h.recordable hmode)
  rw [names_values, names_values, h.onward.labels]

/-- A store that follows a ledger takes the values of the collectors as its next sample. -/
theorem called_writeSample {w : Writer} (h : Tracks s₀ l collecting s) (hfollows : w.Follows l)
    (hmode : w.mode = .ofPlanned s₀.run.config.executions) :
    Yields (writeSample w) s
      (Called s₀ (l.perform (.write (values s.run))).2 collecting s []) := by
  obtain ⟨hanswer, hwritten, hmode'⟩ := Writer.follows_write hfollows (values s.run)
  have hok : l.answer w.mode (.write (values s.run)) = .ok () := by
    cases hm : w.mode with
    | buffered => rfl
    | spooled =>
      have hfits := h.fits (hmode.symm.trans hm)
      exact Ledger.answer_of_fits fun _ _ => hfits
  rw [hok] at hanswer
  simp only [writeSample, yields_bind, yields_theRun]
  generalize w.write (values s.run) = written at hanswer hwritten hmode' ⊢
  obtain ⟨result, w'⟩ := written
  simp only at hanswer hwritten hmode'
  subst hanswer
  simp only [yields_modifyRun]
  refine ⟨rfl, ?_, rfl, rfl, by simp⟩
  have hfits : StoreMode.ofPlanned s₀.run.config.executions = .spooled →
      ∀ x ∈ (l.perform (.write (values s.run))).2.samples, Ledger.Fits x := by
    intro hspooled x hx
    rcases List.mem_append.1 hx with hx | hx
    · exact h.fits hspooled x hx
    · rw [List.mem_singleton.1 hx]
      exact fits_values h hspooled _
  have hcounted : w'.mode = .buffered ∨
      ∀ x ∈ (l.perform (.write (values s.run))).2.samples.dropLast, Ledger.Fits x := by
    cases hm : w'.mode with
    | buffered => exact .inl rfl
    | spooled =>
      exact .inr fun x hx =>
        hfits (hmode.symm.trans (hmode'.symm.trans hm)) x (List.dropLast_subset _ hx)
  exact
    { onward := h.onward.trans (onward_run rfl rfl rfl)
      horizon := h.horizon
      recordable := h.recordable
      order := h.order
      collecting := h.collecting
      steady := h.steady
      store := ⟨w', rfl, hwritten, hmode'.trans hmode⟩
      fits := hfits
      executions := Writer.count_of_follows hwritten hcounted
      status := h.status }

/-- A stop calls every collector in reverse start order, and adds a sample. -/
theorem called_stop (h : Tracks s₀ l true s) :
    Yields stop s fun r t =>
      ∃ sample, Called s₀ { samples := l.samples ++ [sample] } false s s₀.run.stops r t := by
  obtain ⟨w, hstore, hfollows, hmode⟩ := h.store
  simp only [stop, yields_bind, yields_theRun, hstore, h.collecting, Bool.not_true,
    Bool.false_eq_true, if_false]
  refine (called_stopCollectors h).mono ?_
  intro r t ht
  rw [ht.answer]
  refine (called_writeSample ht.tracks hfollows hmode).mono ?_
  intro r u hu
  refine ⟨⟨l.noted.getD 0, values t.run⟩, hu.answer, hu.tracks, hu.work.trans ht.work,
    hu.early.trans ht.early, ?_⟩
  rw [hu.beats, ht.beats, List.append_nil]

/-! ## Sealing -/

omit [Device κ] in
/-- The samples of a sealed run. -/
def Shows (r : Run κ) (samples : List Sample) : Prop :=
  ∃ reader, r.store = .sealed reader ∧ reader.Shows samples

omit [Device κ] in
/-- The result of a run whose store is sealed, with all that it has counted. -/
theorem result_of_sealed {run : Run κ} {reader : Reader} (h : run.store = .sealed reader) :
    run.result = .ok ⟨run.status, run.executions, run.earlyStopped, reader⟩ := by
  rw [Run.result, Run.reader, h]
  rfl

/-- An abort cannot fail: where an iteration is open its collectors are stopped. -/
theorem called_abort_any (h : Tracks s₀ l collecting s) :
    Yields abort s (Called s₀ l false s (if collecting then s₀.run.stops else [])) := by
  cases collecting with
  | true => exact called_abort h
  | false => exact called_abort_closed h

end Run

namespace Session

variable {κ : Type} [Device κ]

/-- A session whose store is sealed, with or without a failure: it shows the samples of the ledger
and their summaries, and the run is marked. -/
structure Sealed (s₀ : Session κ) (l : Ledger) (collecting : Bool) (s : Session κ)
    (failure : Option Failure) (r : Except Halt Unit) (t : Session κ) : Prop where
  answer : r = answerOf failure
  config : t.run.config = s₀.run.config
  reader : ∃ reader, t.run.store = .sealed reader ∧ reader.Shows l.samples ∧
    ∀ metric, reader.summary? metric =
      Summary.ofSeriesIn (.ofPlanned s₀.run.config.executions) (series l.samples metric)
  status : t.run.status = if failure.isSome then .failed else .complete
  executions : t.run.executions = l.samples.length
  early : t.run.earlyStopped = s.run.earlyStopped
  work : t.work = s.work
  beats : t.world.beats = s.world.beats ++ if collecting then s₀.run.stops else []

end Session

namespace Run

open Session Step

variable {κ : Type} [Device κ] {s₀ s : Session κ} {l : Ledger} {collecting : Bool}

/-- **Sealing a session on its way cannot fail**; an open iteration is given up before. -/
theorem yields_finalize_any (h : Tracks s₀ l collecting s) (failure : Option Failure) :
    Yields (finalize failure) s (Sealed s₀ l collecting s failure) := by
  simp only [finalize, yields_bind]
  refine (called_abort_any h).mono ?_
  intro r t ht
  rw [ht.answer]
  obtain ⟨w, hstore, hfollows, hmode⟩ := ht.tracks.store
  have hfits : w.mode = .spooled → ∀ x ∈ l.samples, Ledger.Fits x := fun hspooled =>
    ht.tracks.fits (hmode.symm.trans hspooled)
  obtain ⟨reader, hsealed, hshows, -, hsummary⟩ := Writer.sealed_of_follows hfollows
    fun hspooled x hx => hfits hspooled x (List.mem_of_getLast? hx)
  have hkept : l.kept w.mode = l.samples := by
    cases hm : w.mode with
    | buffered => rfl
    | spooled => exact Ledger.kept_of_fits (hfits hm) .spooled
  rw [hkept] at hshows hsummary
  rw [hmode] at hsummary
  simp only [yields_theRun, hstore, RunStore.toReader, hsealed, yields_bind, yields_modifyRun]
  cases failure with
  | none =>
    exact
      { answer := rfl
        config := ht.tracks.onward.config
        reader := ⟨reader, rfl, hshows, hsummary⟩
        status := by simp [ht.tracks.status]
        executions := ht.tracks.executions
        early := ht.early
        work := ht.work
        beats := ht.beats }
  | some f =>
    exact
      { answer := rfl
        config := ht.tracks.onward.config
        reader := ⟨reader, rfl, hshows, hsummary⟩
        status := rfl
        executions := ht.tracks.executions
        early := ht.early
        work := ht.work
        beats := ht.beats }

end Run

end Gauge
