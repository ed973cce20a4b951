import Gauge.Proofs.Run.Aggregates
import Gauge.Proofs.Run.Count

/-!
# Where the names in a sample come from

A sample is written with one value for each collector.  Until the next one is written, the caller of
the run can attach values to it under names of its own, and nothing else ever gets into it: no value
under the name of a collector, and no name twice.

The history of a run is told as a chronicle with an entry for each sample, also for one that a spool
refused later on.  An entry says how its sample was written and which values were attached to it
while it was the latest one, so a name that a stored sample holds can be traced back to the
collector or to the call that it comes from.

## Main definitions

* `Entry` — a sample as it was written, and the values attached to it since.
* `Entry.Genuine` — an entry whose names are those of the collectors and of its user values.
* `Run.Gathers` — the samples that a run takes on its own.
* `Session.Chronicle` — the entries of a history.
* `Ledger.held` — the samples of a ledger that a store holds before it is sealed.
* `RunStore.samples` — the samples in a store.

## Main statements

* `Run.composes_collects` — all that a run does by itself is to gather samples.
* `Session.Leads.chronicle` — every history has a chronicle.
* `Session.Chronicle.traced` — what a chronicle says about the run that it leads to.
* `Run.samples_are_genuine` — the names of the samples, and what a sealed store shows of collectors.
-/

namespace Gauge

/-- A sample as it was written, and the values that were attached to it since, in that order. -/
structure Entry where
  written : Sample
  attached : List (String × Int64) := []

namespace Entry

variable {names : List String} {e : Entry} {x : Sample}

/-- The sample that has become of it. -/
def sample (e : Entry) : Sample := { e.written with values := e.written.values.extend e.attached }

def userNames (e : Entry) : List String := e.attached.map (·.1)

def attach (e : Entry) (name : String) (value : Int64) : Entry :=
  { e with attached := e.attached ++ [(name, value)] }

/-- The entry of a sample that was just written. -/
def ofSample (x : Sample) : Entry := { written := x }

/-- Its sample was written with a value for each collector and nothing else, and the user values
have names of their own. -/
structure Genuine (names : List String) (e : Entry) : Prop where
  written : ∀ name, e.written.values.contains name ↔ name ∈ names
  apart : ∀ name ∈ e.userNames, name ∉ names
  nodup : e.userNames.Nodup

theorem sample_attach (e : Entry) (name : String) (value : Int64) :
    (e.attach name value).sample =
      { e.sample with values := e.sample.values.insert name value } := by
  simp only [sample, attach, Named.extend, List.foldl_append, List.foldl_cons, List.foldl_nil]

theorem contains_sample {name : String} :
    e.sample.values.contains name ↔ e.written.values.contains name ∨ name ∈ e.userNames :=
  Named.contains_extend

theorem Genuine.contains_iff (h : e.Genuine names) (name : String) :
    e.sample.values.contains name ↔ name ∈ names ∨ name ∈ e.userNames := by
  rw [contains_sample, h.written]

theorem genuine_ofSample (h : ∀ name, x.values.contains name ↔ name ∈ names) :
    (ofSample x).Genuine names where
  written := h
  apart := fun _ hname => (List.not_mem_nil hname).elim
  nodup := List.nodup_nil

/-- A user value whose name is not in the sample yet, and not that of a collector. -/
theorem Genuine.attach (h : e.Genuine names) {name : String} (hname : name ∉ names)
    (hnew : name ∉ e.userNames) (value : Int64) : (e.attach name value).Genuine names := by
  have huser : (e.attach name value).userNames = e.userNames ++ [name] := by
    simp [userNames, Entry.attach]
  refine ⟨h.written, ?_, ?_⟩
  · rw [huser]
    intro other hother
    rcases List.mem_append.1 hother with hold | hlast
    · exact h.apart other hold
    · rwa [List.mem_singleton.1 hlast]
  · rw [huser]
    refine h.nodup.append (List.nodup_singleton name) ?_
    intro other hold hlast
    exact hnew (List.mem_singleton.1 hlast ▸ hold)

end Entry

/-! ## Stores and entries -/

/-- The samples of a store that takes values, those in the spool as they can be read. -/
def Writer.samples (w : Writer) : List (Except StoreFault Sample) :=
  match w.backing with
  | .buffered latestFirst => latestFirst.reverse.map .ok
  | .spooled frames pending =>
    (Cursor.spooled (stream frames) frames.length).toList ++ pending.toList.map .ok

def RunStore.samples : RunStore → List (Except StoreFault Sample)
  | writing w => w.samples
  | sealed reader => if reader.isDisposed then [] else reader.samples
  | lost => []

/-- A sealed store was made from samples: it counts and summarises them, and they can be read until
they are given up. -/
structure Reader.MadeFrom (reader : Reader) (samples : List Sample) : Prop where
  count : reader.count = samples.length
  shows : reader.isDisposed = false → reader.Shows samples
  summary : ∃ mode, ∀ name, reader.summary? name = Summary.ofSeriesIn mode (series samples name)

/-- A store holds the samples of entries.  A spool leaves those out that are too large. -/
def RunStore.Keeps (entries : List Entry) : RunStore → Prop
  | writing w => w.Counts ∧ ∃ l : Ledger, l.samples = entries.map Entry.sample ∧ w.Follows l
  | sealed reader => ∃ stored : List Entry, stored.Sublist entries ∧
      reader.MadeFrom (stored.map Entry.sample)
  | lost => True

/-- A store goes on without a sample and without a user value. -/
inductive RunStore.Rests : RunStore → RunStore → Prop
  | same (store : RunStore) : Rests store store
  | noted (w : Writer) (millis : Int64) : Rests (.writing w) (.writing (w.noteStart millis))
  | sealed {store : RunStore} {reader : Reader} (h : store.toReader = .ok reader) :
      Rests store (.sealed reader)
  | lost (store : RunStore) : Rests store .lost
  | disposed (reader : Reader) : Rests (.sealed reader) (.sealed reader.dispose.2)

theorem Reader.MadeFrom.dispose {reader : Reader} {samples : List Sample}
    (h : reader.MadeFrom samples) : reader.dispose.2.MadeFrom samples where
  count := h.count
  shows := fun hheld => by simp [isDisposed, Reader.dispose] at hheld
  summary := h.summary

/-- What was written is what a store is sealed from. -/
theorem Writer.madeFrom_of_sealed {w : Writer} {l : Ledger} {reader : Reader} (h : w.Follows l)
    (hcount : w.Counts) (hsealed : w.sealed = .ok reader) : reader.MadeFrom (l.kept w.mode) := by
  obtain ⟨hshows, -⟩ := shows_of_sealed h hcount hsealed
  obtain ⟨reader', hsealed', -, -, hsummary⟩ := sealed_of_follows h
    fun hmode s hs => last_fits_of_sealed h hsealed hmode hs
  rw [hsealed] at hsealed'
  cases hsealed'
  exact ⟨hshows.count, fun _ => hshows, w.mode, hsummary⟩

/-- The samples of a ledger that a store in a mode holds as long as it takes values.  A spool holds
the latest one back, whether it fits or not. -/
def Ledger.held (l : Ledger) : StoreMode → List Sample
  | .buffered => l.samples
  | .spooled => l.samples.dropLast.filter (fun x => Fits x) ++ l.samples.getLast?.toList

/-- A writer that follows a ledger can be read, also before it is sealed. -/
theorem Writer.samples_of_follows {w : Writer} {l : Ledger} (h : w.Follows l)
    (hcount : w.Counts) : w.samples = (l.held w.mode).map .ok := by
  obtain ⟨backing, start, tallies, count⟩ := w
  cases backing with
  | buffered latestFirst =>
    have hsamples : latestFirst.reverse = l.samples := h.backing.1
    simp only [samples, mode, Ledger.held, hsamples]
  | spooled frames pending =>
    obtain ⟨hframes, hpending, hwritten⟩ := h.backing
    simp only at hframes hpending hwritten
    -- the frames are counted by the writer, and so are the samples that fit
    have hlength : frames.length = (l.samples.dropLast.filter fun x => Ledger.Fits x).length := by
      have hcounted : count = frames.length + pending.toList.length := hcount
      omega
    have hread : (Cursor.spooled (stream frames) frames.length).toList =
        (l.samples.dropLast.filter fun x => Ledger.Fits x).map .ok := by
      rw [hframes, stream_filter, hlength]
      refine Cursor.toList_spooled fun x hx => ?_
      simpa using (List.mem_filter.1 hx).2
    rw [samples, hpending]
    simp only [mode, Ledger.held, hread, List.map_append]

/-- The samples that a mode keeps are those of some of the entries. -/
theorem Ledger.kept_of_entries {l : Ledger} {entries : List Entry}
    (h : l.samples = entries.map Entry.sample) (mode : StoreMode) :
    ∃ stored : List Entry, stored.Sublist entries ∧ l.kept mode = stored.map Entry.sample := by
  cases mode with
  | buffered => exact ⟨entries, .refl _, h⟩
  | spooled =>
    refine ⟨_, List.filter_sublist (p := fun e => Fits e.sample), ?_⟩
    rw [kept, h, List.filter_map]
    rfl

/-- So are those that it holds. -/
theorem Ledger.held_of_entries {l : Ledger} {entries : List Entry}
    (h : l.samples = entries.map Entry.sample) (mode : StoreMode) :
    ∃ stored : List Entry, stored.Sublist entries ∧ l.held mode = stored.map Entry.sample := by
  cases mode with
  | buffered => exact ⟨entries, .refl _, h⟩
  | spooled =>
    rcases List.eq_nil_or_concat entries with rfl | ⟨before, e, rfl⟩
    · exact ⟨[], .refl _, by simp [held, h]⟩
    · refine ⟨before.filter (fun e => Fits e.sample) ++ [e], ?_, ?_⟩
      · rw [List.concat_eq_append]
        exact List.filter_sublist.append_right _
      · simp [held, h, List.filter_map, Function.comp_def]

namespace RunStore

variable {entries : List Entry} {store store' : RunStore} {w : Writer}

theorem Keeps.rests (h : store.Keeps entries) (hrests : store.Rests store') :
    store'.Keeps entries := by
  cases hrests with
  | same => exact h
  | lost => trivial
  | noted w millis =>
    obtain ⟨hcount, l, hl, hfollows⟩ := h
    have hnoted := (Writer.follows_perform hfollows (.start millis)).2.1
    exact ⟨hcount, (l.perform (.start millis)).2, hl, hnoted⟩
  | disposed reader =>
    obtain ⟨stored, hstored, hmade⟩ := h
    exact ⟨stored, hstored, hmade.dispose⟩
  | sealed hreader =>
    cases store with
    | lost => cases hreader
    | sealed reader =>
      cases hreader
      exact h
    | writing w =>
      obtain ⟨hcount, l, hl, hfollows⟩ := h
      obtain ⟨stored, hstored, hkept⟩ := Ledger.kept_of_entries hl w.mode
      exact ⟨stored, hstored, hkept ▸ Writer.madeFrom_of_sealed hfollows hcount hreader⟩

/-- The entry of a sample comes with it, whether the store accepts the sample or not. -/
theorem Keeps.write (h : (RunStore.writing w).Keeps entries) (values : Named Int64) :
    (RunStore.writing (w.write values).2).Keeps
      (entries ++ [.ofSample { start := w.pendingStart.getD 0, values := values }]) := by
  obtain ⟨hcount, l, hl, hfollows⟩ := h
  refine ⟨Writer.counts_write hcount values, _, ?_, (Writer.follows_write hfollows values).2.1⟩
  rw [List.map_append, ← hl, hfollows.start]
  rfl

/-- A user value that is accepted goes to the entry of the latest sample, under a name that it does
not have yet. -/
theorem Keeps.attach (h : (RunStore.writing w).Keeps entries) {name : String} {value : Int64}
    (hok : (w.attach name value).1 = .ok ()) :
    ∃ before e, entries = before ++ [e] ∧ e.sample.values.contains name = false ∧
      (RunStore.writing (w.attach name value).2).Keeps (before ++ [e.attach name value]) := by
  obtain ⟨hcount, l, hl, hfollows⟩ := h
  obtain ⟨hanswer, hattached, -⟩ := Writer.follows_attach hfollows name value
  rw [hok, Ledger.perform] at hanswer
  rw [Ledger.perform] at hattached
  rcases List.eq_nil_or_concat entries with rfl | ⟨before, e, rfl⟩
  · rw [hl] at hanswer
    cases hanswer
  · have hlast : l.samples.getLast? = some e.sample := by simp [hl]
    rw [hlast] at hanswer hattached
    by_cases hheld : e.sample.values.contains name
    · simp [hheld] at hanswer
    · refine ⟨before, e, List.concat_eq_append, by simpa using hheld,
        Writer.counts_attach hcount name value, _, ?_, hattached⟩
      simp [hheld, hl, Entry.sample_attach]

/-- The latest sample of a store is that of the last entry. -/
theorem Keeps.latest? (h : (RunStore.writing w).Keeps entries) :
    w.latest? = entries.getLast?.map Entry.sample := by
  obtain ⟨-, l, hl, hfollows⟩ := h
  rw [Writer.latest?_of_follows hfollows, hl, List.getLast?_map]

/-- What can be read of a store are samples of its entries, in their order. -/
theorem Keeps.samples (h : store.Keeps entries) :
    ∃ stored : List Entry, stored.Sublist entries ∧
      store.samples = stored.map fun e => .ok e.sample := by
  cases store with
  | lost => exact ⟨[], List.nil_sublist _, rfl⟩
  | sealed reader =>
    obtain ⟨stored, hstored, hmade⟩ := h
    cases hdisposed : reader.isDisposed with
    | true => exact ⟨[], List.nil_sublist _, by simp [RunStore.samples, hdisposed]⟩
    | false =>
      refine ⟨stored, hstored, ?_⟩
      simp [RunStore.samples, hdisposed, (hmade.shows hdisposed).samples]
  | writing w =>
    obtain ⟨hcount, l, hl, hfollows⟩ := h
    obtain ⟨stored, hstored, hheld⟩ := Ledger.held_of_entries hl w.mode
    refine ⟨stored, hstored, ?_⟩
    rw [RunStore.samples, Writer.samples_of_follows hfollows hcount, hheld, List.map_map]
    rfl

end RunStore

/-! ## The samples that a run takes on its own -/

namespace Run

variable {κ : Type} [Device κ] {r r' r'' : Run κ}

/-- The samples that a run takes on its own, which is without a user value.  Each time its store is
given the values that the collectors show then, whether the store accepts them or not. -/
inductive Gathers (r : Run κ) : List Sample → Run κ → Prop
  | refl : Gathers r [] r
  | rest {samples : List Sample} {r' r'' : Run κ} (h : Gathers r samples r')
      (hlabels : r''.labels = r'.labels) (hstore : r'.store.Rests r''.store) :
      Gathers r samples r''
  | sample {samples : List Sample} {r' r'' : Run κ} {w : Writer} (h : Gathers r samples r')
      (hlabels : r''.labels = r'.labels) (hwriting : r'.store = .writing w)
      (hwritten : r''.store = .writing (w.write (values r')).2) :
      Gathers r (samples ++ [{ start := w.pendingStart.getD 0, values := values r' }]) r''

theorem Gathers.trans {xs ys : List Sample} (h : r.Gathers xs r') (h' : r'.Gathers ys r'') :
    r.Gathers (xs ++ ys) r'' := by
  induction h' with
  | refl =>
    rw [List.append_nil]
    exact h
  | rest _ hlabels hstore ih => exact ih.rest hlabels hstore
  | sample _ hlabels hwriting hwritten ih =>
    rw [← List.append_assoc]
    exact ih.sample hlabels hwriting hwritten

theorem Gathers.labels {samples : List Sample} (h : r.Gathers samples r') :
    r'.labels = r.labels := by
  induction h with
  | refl => rfl
  | rest _ hlabels _ ih => exact hlabels.trans ih
  | sample _ hlabels _ _ ih => exact hlabels.trans ih

omit [Device κ] in
theorem names_of_labels (h : r'.labels = r.labels) : r'.names = r.names := by
  have hnames (r : Run κ) : r.names = r.labels.map (·.1) := by
    rw [Run.labels, List.map_map]
    rfl
  rw [hnames, hnames, h]

/-- A sample of the collectors has a value for each of them and nothing else. -/
theorem contains_values {name : String} : (values r).contains name ↔ name ∈ r.names := by
  rw [values, Named.contains_ofList, List.map_map]
  rfl

theorem Gathers.contains {samples : List Sample} (h : r.Gathers samples r') :
    ∀ x ∈ samples, ∀ name, x.values.contains name ↔ name ∈ r.names := by
  induction h with
  | refl => simp
  | rest _ _ _ ih => exact ih
  | sample h _ _ _ ih =>
    intro x hx name
    rcases List.mem_append.1 hx with hold | hlast
    · exact ih x hold name
    · rw [List.mem_singleton.1 hlast, ← names_of_labels h.labels]
      exact contains_values

theorem Gathers.keeps {samples : List Sample} {entries : List Entry} (h : r.Gathers samples r')
    (hr : r.store.Keeps entries) : r'.store.Keeps (entries ++ samples.map .ofSample) := by
  induction h with
  | refl => simpa using hr
  | rest _ _ hstore ih => exact ih.rests hstore
  | sample _ _ hwriting hwritten ih =>
    rw [hwriting] at ih
    rw [hwritten, List.map_append, ← List.append_assoc]
    exact ih.write _

end Run

/-- A step that gathers samples, whether it answers or not. -/
def Step.Collects {κ α : Type} [Device κ] (x : Step κ α) : Prop :=
  ∀ s, Yields x s fun _ t => ∃ samples, s.run.Gathers samples t.run

namespace Run

open Session Step

variable {κ : Type} [Device κ] {s : Session κ}

theorem collects_of_run_eq {α : Type} {x : Step κ α}
    (h : ∀ s, Yields x s fun _ t => t.run = s.run) : Collects x :=
  fun s => (h s).mono fun _ _ ht => ⟨[], ht ▸ .refl⟩

theorem collects_of_rests {α : Type} {x : Step κ α}
    (h : ∀ s, Yields x s fun _ t => t.run.labels = s.run.labels ∧ s.run.store.Rests t.run.store) :
    Collects x :=
  fun s => (h s).mono fun _ _ ht => ⟨[], .rest .refl ht.1 ht.2⟩

theorem Collects.bind {α β : Type} {x : Step κ α} {f : α → Step κ β} (hx : Collects x)
    (hf : ∀ a, Collects (f a)) : Collects (x >>= f) := by
  intro s
  rw [yields_bind]
  refine (hx s).mono fun r t ht => ?_
  obtain ⟨xs, hxs⟩ := ht
  cases r with
  | error e => exact ⟨xs, hxs⟩
  | ok a =>
    refine (hf a t).mono fun _ u hu => ?_
    obtain ⟨ys, hys⟩ := hu
    exact ⟨xs ++ ys, hxs.trans hys⟩

/-- A start notes its time if anything. -/
theorem collects_start (mode : CollectionMode) : Collects (start mode : Step κ Unit) := by
  refine collects_of_rests fun s => ?_
  have hsame : s.run.labels = s.run.labels ∧ s.run.store.Rests s.run.store := ⟨rfl, .same _⟩
  simp only [start, yields_bind, yields_theRun]
  split
  · exact hsame
  · next order w _ hstore =>
    by_cases hcollecting : s.run.collecting
    · simp only [hcollecting, if_true, yields_bind, yields_fail]
      exact ⟨trivial, hsame.2⟩
    · simp only [if_neg hcollecting, yields_bind]
      simp only [yields_get, yields_modifyRun]
      refine (yields_callCollectors mode.call order _).mono fun r t ht => ?_
      obtain ⟨collectors, hlabels, hrun⟩ := ht
      have hnoted : t.run.labels = s.run.labels ∧ s.run.store.Rests t.run.store := by
        rw [hrun, hstore]
        exact ⟨hlabels, .noted w _⟩
      cases r <;> exact hnoted
  · exact hsame

/-- Collectors that are stopped leave the store. -/
theorem collects_abort : Collects (abort : Step κ Unit) := by
  refine collects_of_rests fun s => (yields_abort s).mono fun _ t ht => ?_
  obtain ⟨_, _, hlabels, hrun, -⟩ := ht
  rw [hrun]
  exact ⟨hlabels, .same _⟩

/-- A store that takes values is given one sample, whatever it answers. -/
theorem gathers_writeSample {w : Writer} (h : s.run.store = .writing w) :
    Yields (writeSample w) s fun _ t =>
      s.run.Gathers [{ start := w.pendingStart.getD 0, values := values s.run }] t.run := by
  refine (yields_writeSample w s).mono ?_
  rintro r t (⟨-, -, rfl⟩ | ⟨fault, -, -, rfl⟩) <;> exact Gathers.refl.sample rfl h rfl

theorem collects_stop : Collects (stop : Step κ Unit) := by
  intro s
  simp only [stop, yields_bind, yields_theRun]
  split
  · next w hstore =>
    by_cases hcollecting : s.run.collecting
    · simp only [hcollecting, Bool.not_true, Bool.false_eq_true, if_false, yields_bind]
      refine (yields_stopCollectors s).mono fun r t ht => ?_
      obtain ⟨_, _, hlabels, hrun, -⟩ := ht
      have hstopped : s.run.Gathers [] t.run := by
        rw [hrun]
        exact Gathers.refl.rest hlabels (.same _)
      cases r with
      | error e => exact ⟨_, hstopped⟩
      | ok _ =>
        have hwriting : t.run.store = .writing w := by rw [hrun]; exact hstore
        exact (gathers_writeSample hwriting).mono fun _ _ hu => ⟨_, hstopped.trans hu⟩
    · simp only [hcollecting, Bool.not_false, if_true, yields_bind, yields_fail]
      exact ⟨_, .refl⟩
  · exact ⟨_, .refl⟩

theorem collects_finalize (failure : Option Failure) :
    Collects (finalize failure : Step κ Unit) := by
  refine Collects.bind collects_abort fun _ => collects_of_rests fun s => ?_
  simp only [yields_bind, yields_theRun]
  cases hreader : s.run.store.toReader with
  | error fault => exact ⟨rfl, .lost _⟩
  | ok reader => cases failure <;> exact ⟨rfl, .sealed hreader⟩

theorem collects_dispose : Collects (dispose : Step κ Unit) := by
  refine collects_of_rests fun s => ?_
  simp only [dispose, yields_bind, yields_theRun]
  split
  · exact ⟨rfl, .same _⟩
  · exact ⟨rfl, .same _⟩
  · next reader hstore =>
    have hdisposed : s.run.store.Rests (.sealed reader.dispose.2) := hstore ▸ .disposed reader
    simp only [yields_bind, yields_modifyRun]
    cases reader.dispose.1 <;> exact ⟨rfl, hdisposed⟩

/-- **All that a run does by itself is to gather samples**: no part of it attaches a value. -/
theorem composes_collects (token : Token) : Composes (κ := κ) token fun _ x => Collects x where
  pure := fun _ => collects_of_run_eq fun _ => rfl
  fail := fun _ => collects_of_run_eq fun _ => rfl
  theRun := collects_of_run_eq fun _ => rfl
  bind := Collects.bind
  settle := fun hx s => (yields_settle _).2 (hx s)
  checkpoint := collects_of_run_eq fun s => by
    rw [yields_inWorld, Yields]
    cases World.checkpoint token s.world <;> rfl
  callHook := fun stage => collects_of_run_eq fun s => by
    refine (yields_callHook token stage s).mono ?_
    rintro r t (⟨-, -, rfl⟩ | ⟨action, h⟩)
    · rfl
    · exact h.run
  prepare := collects_of_rests fun _ => ⟨rfl, .same _⟩
  start := collects_start
  stop := collects_stop
  abort := collects_abort
  noteEarly := collects_of_rests fun _ => ⟨rfl, .same _⟩
  finalize := collects_finalize

/-- So every operation gathers samples, except that a user value is attached by its own one. -/
theorem collects_perform (token : Token) {operation : Operation}
    (hother : ∀ name value, operation ≠ .attach name value) :
    Collects (operation.perform token : Step κ Unit) := by
  cases operation with
  | prepare => exact (composes_collects token).prepare
  | start => exact collects_start .fresh
  | restart => exact collects_start .accumulate
  | stop => exact collects_stop
  | abort => exact collects_abort
  | attach name value => exact absurd rfl (hother name value)
  | warmup => exact (composes_collects token).warmup
  | mainLoop => exact (composes_collects token).mainLoop
  | execute => exact (composes_collects token).execute
  | finalize failure => exact collects_finalize failure
  | dispose => exact collects_dispose

end Run

/-! ## Chronicles -/

namespace Session

variable {κ : Type} [Device κ] {s t : Session κ} {entries : List Entry}

/-- A history with an entry for each sample that the run has taken.  A user value that was accepted
goes to the entry of the latest sample; every other operation adds the samples that the run takes
meanwhile.  The mode of the run can be changed at any time. -/
inductive Chronicle (s : Session κ) : List Entry → Session κ → Prop
  | refl : Chronicle s [] s
  | pass {entries : List Entry} {t : Session κ} {w : World (Event κ)} (h : Chronicle s entries t)
      (hw : t.world.Silent w) : Chronicle s entries { t with world := w }
  | mode {entries : List Entry} {t : Session κ} (mode : CollectionMode)
      (h : Chronicle s entries t) :
      Chronicle s entries { t with run := { t.run with mode := mode } }
  | attached {before : List Entry} {e : Entry} {t : Session κ} (work : Workload) (name : String)
      (value : Int64) (h : Chronicle s (before ++ [e]) t)
      (hok : Step.answer (Run.attach name value) { t with work := work } = .ok ()) :
      Chronicle s (before ++ [e.attach name value])
        (Step.after (Run.attach name value) { t with work := work })
  | refused {entries : List Entry} {t : Session κ} (work : Workload) (name : String)
      (value : Int64) (h : Chronicle s entries t)
      (hrefused : Step.answer (Run.attach name value) { t with work := work } ≠ .ok ()) :
      Chronicle s entries (Step.after (Run.attach name value) { t with work := work })
  | perform {entries : List Entry} {samples : List Sample} {t : Session κ} (work : Workload)
      (token : Token) (operation : Run.Operation) (h : Chronicle s entries t)
      (hother : ∀ name value, operation ≠ .attach name value)
      (hsamples : t.run.Gathers samples
        (Step.after (operation.perform token) { t with work := work }).run) :
      Chronicle s (entries ++ samples.map .ofSample)
        (Step.after (operation.perform token) { t with work := work })

/-- What a chronicle says about the run that it leads to. -/
structure Traced (s : Session κ) (entries : List Entry) (t : Session κ) : Prop where
  labels : t.run.labels = s.run.labels
  genuine : ∀ e ∈ entries, e.Genuine s.run.names
  keeps : t.run.store.Keeps entries
  accounted : t.run.Accounted

theorem Fresh.traced (h : s.Fresh) : s.Traced [] s where
  labels := rfl
  genuine := by simp
  keeps := by
    rw [h.run_eq]
    exact ⟨Writer.counts_after (.ofPlanned s.run.config.executions) [], {}, rfl,
      Writer.follows_ofMode _⟩
  accounted := h.accounted

omit [Device κ] in
theorem Traced.of_work (h : s.Traced entries t) (work : Workload) :
    s.Traced entries { t with work := work } :=
  ⟨h.labels, h.genuine, h.keeps, h.accounted⟩

/-- A user value that is accepted is new to the latest sample, and its name is not that of a
collector. -/
theorem Traced.of_attach (h : s.Traced entries t) {name : String} {value : Int64}
    (hok : Step.answer (Run.attach name value) t = .ok ()) :
    ∃ before e, entries = before ++ [e] ∧ name ∉ s.run.names ∧ name ∉ e.userNames ∧
      s.Traced (before ++ [e.attach name value]) (Step.after (Run.attach name value) t) := by
  rcases Step.yields_iff.1 (Run.yields_attach name value t) with
    ⟨w, hstore, hname, -, haccepted, hafter⟩ | ⟨f, hfailed, -⟩
  · have hkeeps := h.keeps
    rw [hstore] at hkeeps
    obtain ⟨before, e, rfl, hheld, hattached⟩ := hkeeps.attach haccepted
    rw [Run.names_of_labels h.labels] at hname
    have hgenuine := h.genuine e (by simp)
    have hnew : name ∉ e.userNames := fun hmem => by
      rw [(hgenuine.contains_iff name).2 (.inr hmem)] at hheld
      cases hheld
    have haccounted : (Step.after (Run.attach name value) t).run.Accounted :=
      Run.accounted_of_alters (Step.yields_after_iff.1
        (Run.alters_perform ⟨0, []⟩ (.attach name value) t)) h.accounted
    refine ⟨before, e, rfl, hname, hnew, ?_, ?_, ?_, haccounted⟩
    · rw [hafter]
      exact h.labels
    · intro x hx
      rcases List.mem_append.1 hx with hold | hlast
      · exact h.genuine x (List.mem_append_left _ hold)
      · rw [List.mem_singleton.1 hlast]
        exact hgenuine.attach hname hnew value
    · rw [hafter]
      exact hattached
  · rw [hfailed] at hok
    cases hok

omit [Device κ] in
theorem Traced.of_refused (h : s.Traced entries t) {name : String} {value : Int64}
    (hrefused : Step.answer (Run.attach name value) t ≠ .ok ()) :
    s.Traced entries (Step.after (Run.attach name value) t) := by
  rcases Step.yields_iff.1 (Run.yields_attach name value t) with
    ⟨w, -, -, hok, -, -⟩ | ⟨f, -, hafter⟩
  · exact absurd hok hrefused
  · rw [hafter]
    exact h

theorem Traced.of_gathers (h : s.Traced entries t) {samples : List Sample} {u : Session κ}
    (hsamples : t.run.Gathers samples u.run) (haccounted : u.run.Accounted) :
    s.Traced (entries ++ samples.map .ofSample) u where
  labels := hsamples.labels.trans h.labels
  genuine := by
    intro e he
    rcases List.mem_append.1 he with hold | hnew
    · exact h.genuine e hold
    · obtain ⟨x, hx, rfl⟩ := List.mem_map.1 hnew
      refine Entry.genuine_ofSample fun name => ?_
      rw [hsamples.contains x hx, Run.names_of_labels h.labels]
  keeps := hsamples.keeps h.keeps
  accounted := haccounted

/-- **A chronicle tells the samples of its run**, whatever the caller does. -/
theorem Chronicle.traced (h : s.Chronicle entries t) (hfresh : s.Fresh) :
    s.Traced entries t := by
  induction h with
  | refl => exact hfresh.traced
  | pass _ _ ih => exact ⟨ih.labels, ih.genuine, ih.keeps, ih.accounted⟩
  | mode mode _ ih => exact ⟨ih.labels, ih.genuine, ih.keeps, ih.accounted⟩
  | @attached before e t work name value _ hok ih =>
    obtain ⟨before', e', hlast, -, -, hnext⟩ := (ih.of_work work).of_attach hok
    obtain ⟨rfl, rfl⟩ := List.append_singleton_inj.1 hlast
    exact hnext
  | refused work name value _ hrefused ih => exact (ih.of_work work).of_refused hrefused
  | @perform _ _ t work token operation _ _ hsamples ih =>
    refine ih.of_gathers hsamples (Run.accounted_of_alters ?_ ih.accounted)
    exact Step.yields_after_iff.1 (Run.alters_perform token operation { t with work := work })

/-- **Every history has a chronicle.** -/
theorem Leads.chronicle (h : s.Leads t) (hfresh : s.Fresh) :
    ∃ entries, s.Chronicle entries t := by
  induction h with
  | refl => exact ⟨[], .refl⟩
  | pass _ hw ih =>
    obtain ⟨entries, hentries⟩ := ih
    exact ⟨entries, hentries.pass hw⟩
  | @perform t work token operation _ ih =>
    obtain ⟨entries, hentries⟩ := ih
    by_cases hattach : ∃ name value, operation = .attach name value
    · obtain ⟨name, value, rfl⟩ := hattach
      by_cases hok : Step.answer (Run.attach name value) { t with work := work } = .ok ()
      · obtain ⟨before, e, rfl, -⟩ := ((hentries.traced hfresh).of_work work).of_attach hok
        exact ⟨_, hentries.attached work name value hok⟩
      · exact ⟨_, hentries.refused work name value hok⟩
    · have hother : ∀ name value, operation ≠ .attach name value :=
        fun name value hop => hattach ⟨name, value, hop⟩
      obtain ⟨samples, hsamples⟩ := Step.yields_after_iff.1
        (Run.collects_perform token hother { t with work := work })
      exact ⟨_, hentries.perform work token operation hother hsamples⟩

end Session

/-! ## Sealed stores -/

/-- A metric that no sample lacks is summarised over all of them, and none of its values is
missing. -/
theorem Reader.MadeFrom.carries {reader : Reader} {samples : List Sample} {name : String}
    (h : reader.MadeFrom samples) (hname : ∀ x ∈ samples, x.values.contains name) :
    (reader.summary? name).map (·.count) =
        (if samples.length = 0 then none else some samples.length) ∧
      (reader.isDisposed = false → ∃ vs : List Int64, vs.length = samples.length ∧
        reader.values name = .ok (vs.map some)) := by
  obtain ⟨mode, hsummary⟩ := h.summary
  refine ⟨?_, fun hheld => ⟨series samples name, length_series hname, ?_⟩⟩
  · rw [hsummary, Summary.count_ofSeriesIn, length_series hname]
  · rw [(h.shows hheld).values, map_some_series hname]

/-- Samples that were given up cannot be read. -/
theorem Reader.values_of_isDisposed {reader : Reader} (h : reader.isDisposed) (name : String) :
    reader.values name = .error .disposed := by
  have hholding : reader.holding = .disposed := by simpa [isDisposed] using h
  have hsamples : reader.samples = [.error .disposed] := by
    rw [samples, cursor, hholding, Cursor.toList_of_some rfl, Cursor.toList_of_none rfl]
  rw [values, hsamples]
  rfl

namespace Run

open Session Step

variable {κ : Type} [Device κ] {s : Session κ}

/-- **Every sample carries every collector, and nothing passes for one.**  Every history of a new
run has a chronicle, and whatever chronicle leads to a run: the samples in its store are those of
entries, and the latest one is that of the last entry.  The sample of an entry has a value for each
collector, and its other names are those that were attached to it while it was the latest sample;
none of them is the name of a collector, and none was given twice.  No user value is ever accepted
under the name of a collector, or under one that the latest sample has been given before.  So a
sealed store summarises each collector over all iterations, and none of its values is missing. -/
theorem samples_are_genuine (hfresh : s.Fresh) :
    (∀ t, s.Leads t → ∃ entries, s.Chronicle entries t) ∧
    ∀ entries t, s.Chronicle entries t →
      (∃ stored : List Entry, stored.Sublist entries ∧
        t.run.store.samples = stored.map fun e => .ok e.sample) ∧
      (∀ w, t.run.store = .writing w → w.latest? = entries.getLast?.map Entry.sample) ∧
      (∀ e ∈ entries, e.Genuine s.run.names ∧
        ∀ name, e.sample.values.contains name ↔ name ∈ s.run.names ∨ name ∈ e.userNames) ∧
      (∀ work name value, answer (attach name value) { t with work := work } = .ok () →
        name ∉ s.run.names ∧ ∃ e, entries.getLast? = some e ∧ name ∉ e.userNames) ∧
      ∀ reader, t.run.store = .sealed reader → ∀ name ∈ s.run.names,
        (reader.summary? name).map (·.count) =
          (if t.run.executions = 0 then none else some t.run.executions) ∧
        (reader.isDisposed = false → ∃ vs : List Int64, vs.length = t.run.executions ∧
          reader.values name = .ok (vs.map some)) ∧
        (reader.isDisposed → reader.values name = .error .disposed) := by
  refine ⟨fun t ht => ht.chronicle hfresh, fun entries t h => ?_⟩
  have ht := h.traced hfresh
  refine ⟨ht.keeps.samples, fun w hw => ?_, fun e he => ?_, fun work name value hok => ?_,
    fun reader hreader name hname => ?_⟩
  · have hkeeps := ht.keeps
    rw [hw] at hkeeps
    exact hkeeps.latest?
  · exact ⟨ht.genuine e he, (ht.genuine e he).contains_iff⟩
  · obtain ⟨before, e, rfl, hapart, hnew, -⟩ := (ht.of_work work).of_attach hok
    exact ⟨hapart, e, List.getLast?_concat, hnew⟩
  · have hkeeps := ht.keeps
    have haccounted := ht.accounted
    rw [Accounted, hreader] at haccounted
    rw [hreader] at hkeeps
    obtain ⟨stored, hstored, hmade⟩ := hkeeps
    have hcount : (stored.map Entry.sample).length = t.run.executions :=
      hmade.count.symm.trans haccounted.1.symm
    have hcarried : ∀ x ∈ stored.map Entry.sample, x.values.contains name := by
      intro x hx
      obtain ⟨e, he, rfl⟩ := List.mem_map.1 hx
      exact ((ht.genuine e (hstored.subset he)).contains_iff name).2 (.inl hname)
    obtain ⟨hsummary, hvalues⟩ := hmade.carries hcarried
    rw [hcount] at hsummary hvalues
    exact ⟨hsummary, hvalues, fun hdisposed => Reader.values_of_isDisposed hdisposed name⟩

/-- Two samples are spooled.  Of four user values the first is accepted; the others come again,
under the name of a collector, and after the end. -/
theorem samples_are_genuine_spooledCollectors :
    spooledCollectors.Fresh ∧ ∃ entries t reader, spooledCollectors.Chronicle entries t ∧
      t.run.store = .sealed reader ∧ t.run.executions = 2 ∧
      (∀ e ∈ entries, e.Genuine ["cpu", "time", "real"]) ∧
      (reader.summary? "time").map (·.count) = some 2 ∧
      ∃ vs : List Int64, vs.length = 2 ∧ reader.values "time" = .ok (vs.map some) := by
  have hfresh : spooledCollectors.Fresh :=
    ⟨spooledCollectors.run.config, spooledCollectors.run.collectors, spooledCollectors.run, rfl,
      rfl⟩
  have horder : startOrder spooledCollectors.run.collectors = [1, 2, 0] := order_threeCollectors
  have hleads := (Leads.perform spooledCollectors.work ⟨0, []⟩ .prepare .refl :
    spooledCollectors.Leads _).foldl ⟨0, []⟩ [.start, .stop, .attach "size" 1, .attach "size" 2,
      .attach "time" 3, .restart, .stop, .finalize none, .attach "size" 4]
  rw [after_prepare, horder] at hleads
  generalize ht : List.foldl _ _ _ = t at hleads
  have hexecutions : t.run.executions = 2 := by
    rw [← ht]
    decide +kernel
  have hheld : t.run.reader.toOption.map Reader.isDisposed = some false := by
    rw [← ht]
    decide +kernel
  obtain ⟨reader, hreader, hdisposed⟩ := Option.map_eq_some_iff.1 hheld
  have hstore : t.run.store = .sealed reader := store_of_reader hreader
  obtain ⟨hchronicle, htraced⟩ := samples_are_genuine hfresh
  obtain ⟨entries, hentries⟩ := hchronicle t hleads
  obtain ⟨-, -, hgenuine, -, hsealed⟩ := htraced entries t hentries
  obtain ⟨hsummary, hvalues, -⟩ := hsealed reader hstore "time" (by decide)
  rw [hexecutions] at hsummary hvalues
  exact ⟨hfresh, entries, t, reader, hentries, hstore, hexecutions,
    fun e he => (hgenuine e he).1, hsummary, hvalues hdisposed⟩

end Run

end Gauge
