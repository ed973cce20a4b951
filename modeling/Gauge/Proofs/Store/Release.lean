import Gauge.Proofs.Store.Damage

/-!
# Giving samples up

The owner of a sealed store can give up the values of single metrics, and all samples at once.
Neither touches the aggregates.  The first takes values out of a store in memory and nothing else,
and does nothing to a spool; the second is final, also where the spool file cannot be deleted.

## Main definitions

* `Release` — what the owner of a store gives up; `Reader.release` is one step of it.
* `Sample.without` — a sample without the values of some names.
* `Reader.withoutSpool` — a store whose spool file was removed.

## Main statements

* `Reader.release_eq` — what a store holds after any releases.
* `Reader.release_of_disposed` — after the samples were given up nothing happens any more.
* `Reader.released_keeps_rest` — what stays, and what is gone, after releases of a sealed store.
-/

namespace Gauge

/-- What the owner of a sealed store gives up. -/
inductive Release where
  /-- the values of one metric -/
  | clear (name : String)
  /-- all samples -/
  | dispose
  deriving DecidableEq

def Release.names (releases : List Release) : List String :=
  releases.filterMap fun
    | .clear name => some name
    | .dispose => none

theorem Release.mem_names {releases : List Release} {name : String} :
    name ∈ names releases ↔ .clear name ∈ releases := by
  rw [names, List.mem_filterMap]
  constructor
  · rintro ⟨release, hmem, hname⟩
    cases release <;> cases hname
    exact hmem
  · exact fun hmem => ⟨_, hmem, rfl⟩

/-! ## Samples without values -/

/-- A sample without the values of some names. -/
def Sample.without (s : Sample) (names : List String) : Sample :=
  { s with values := names.foldl (fun values name => values.erase name) s.values }

theorem Sample.find?_without (s : Sample) (names : List String) (name : String) :
    (s.without names).values.find? name =
      if name ∈ names then none else s.values.find? name := by
  rw [without]
  induction names generalizing s with
  | nil => rfl
  | cons other names ih =>
    rw [List.foldl_cons, ih { s with values := s.values.erase other }, Named.find?_erase]
    by_cases hname : name = other <;> simp [hname]

/-- A metric that is not named keeps its values. -/
theorem Sample.map_find?_without {names : List String} {name : String} (hname : name ∉ names)
    (samples : List Sample) : (samples.map fun s => s.without names).map (·.values.find? name) =
      samples.map (·.values.find? name) := by
  rw [List.map_map]
  refine List.map_congr_left fun s _ => ?_
  rw [Function.comp_apply, find?_without, if_neg hname]

/-- A metric that is named has no value left. -/
theorem Sample.map_find?_without_of_mem {names : List String} {name : String}
    (hname : name ∈ names) (samples : List Sample) :
    (samples.map fun s => s.without names).map (·.values.find? name) =
      samples.map fun _ => none := by
  rw [List.map_map]
  refine List.map_congr_left fun s _ => ?_
  rw [Function.comp_apply, find?_without, if_pos hname]

/-- What a store holds without the values of some names: a spool keeps all of them. -/
def Holding.without (names : List String) : Holding → Holding
  | .buffered samples => .buffered (samples.map fun s => s.without names)
  | holding => holding

theorem Holding.without_nil (holding : Holding) : holding.without [] = holding := by
  cases holding with
  | buffered samples => exact congrArg Holding.buffered (List.map_id samples)
  | spooled file => rfl
  | disposed => rfl

theorem Holding.without_cons (holding : Holding) (name : String) (names : List String) :
    (holding.without [name]).without names = holding.without (name :: names) := by
  cases holding with
  | buffered samples => exact congrArg Holding.buffered List.map_map
  | spooled file => rfl
  | disposed => rfl

/-! ## Releases of any store -/

namespace Reader

def release (r : Reader) : Release → Except StoreFault Unit × Reader
  | .clear name => (.ok (), r.clear name)
  | .dispose => r.dispose

/-- A store after releases. -/
def afterReleases (r : Reader) (releases : List Release) : Reader :=
  (performAll release r releases).2

theorem clear_eq (r : Reader) (name : String) :
    r.clear name = { r with holding := r.holding.without [name] } := by
  obtain ⟨holding, mode, keys, count, aggregates⟩ := r
  cases holding <;> rfl

/-- **What a store holds after any releases**: nothing once its samples were given up, and before
that all but the values of the names that were cleared.  Everything else stays. -/
theorem release_eq (r : Reader) (releases : List Release) :
    r.afterReleases releases = { r with
      holding := if .dispose ∈ releases then .disposed
        else r.holding.without (Release.names releases) } := by
  induction releases generalizing r with
  | nil =>
    have hnothing := r.holding.without_nil
    simp only [List.not_mem_nil, if_false, Release.names, List.filterMap_nil, hnothing]
    rfl
  | cons release releases ih =>
    have hstep : r.afterReleases (release :: releases) =
      (r.release release).2.afterReleases releases := rfl
    rw [hstep, ih]
    cases release with
    | clear name =>
      have hnames : Release.names (.clear name :: releases) = name :: Release.names releases := rfl
      simp only [Reader.release, clear_eq, Holding.without_cons, hnames, List.mem_cons,
        reduceCtorEq, false_or]
    | dispose =>
      have hgone : Holding.disposed.without (Release.names releases) = .disposed := rfl
      simp only [Reader.release, dispose, hgone, ite_self, List.mem_cons, true_or, if_true]

/-- After the samples were given up every release answers that all is well, and does nothing. -/
theorem release_of_disposed {r : Reader} (h : r.holding = .disposed) (releases : List Release) :
    performAll release r releases = (releases.map fun _ => .ok (), r) := by
  induction releases with
  | nil => rfl
  | cons release releases ih =>
    have hstep : r.release release = (.ok (), r) := by
      obtain ⟨holding, mode, keys, count, aggregates⟩ := r
      simp only at h
      subst h
      cases release <;> rfl
    rw [performAll, hstep, ih]
    rfl

theorem tells_of_disposed {r : Reader} (h : r.holding = .disposed) :
    r.isDisposed ∧ r.hasSpool = false ∧ r.Tells [] (some .disposed) := by
  refine ⟨by simp [isDisposed, h], by simp [hasSpool, h], tells_of_samples ?_⟩
  rw [samples, cursor, h, Cursor.toList_of_some rfl, Cursor.toList_of_none rfl]
  rfl

/-! ## Releases of a sealed store -/

/-- A store whose spool file was removed, if it has one. -/
def withoutSpool (r : Reader) : Reader :=
  match r.holding with
  | .spooled _ => { r with holding := .spooled none }
  | _ => r

/-- What a store in memory holds is what it shows. -/
theorem tells_of_buffered {r : Reader} {samples : List Sample} (h : r.holding = .buffered samples) :
    r.Tells samples none := by
  refine tells_of_samples ?_
  rw [Reader.samples, cursor, h, Cursor.toList_buffered]
  exact (List.append_nil _).symm

/-- A store in memory shows every sample without the values that were cleared, and nothing else is
gone from it. -/
theorem tells_of_cleared {r : Reader} {samples : List Sample} (h : r.holding = .buffered samples)
    {releases : List Release} (hkept : .dispose ∉ releases) :
    (r.afterReleases releases).Tells
      (samples.map fun s => s.without (Release.names releases)) none := by
  refine tells_of_buffered ?_
  rw [release_eq, if_neg hkept, h]
  rfl

/-- A spool that was cleared is what it was. -/
theorem afterReleases_of_spooled {r : Reader} {file : Option (List UInt8)}
    (h : r.holding = .spooled file) {releases : List Release} (hkept : .dispose ∉ releases) :
    r.afterReleases releases = r := by
  have hsame : r.holding.without (Release.names releases) = r.holding := by
    rw [h]
    rfl
  rw [release_eq, if_neg hkept, hsame]

/-- Samples that are given up are gone whatever was cleared before, also where that failed. -/
theorem afterReleases_of_dispose (r : Reader) {releases : List Release}
    (hgone : .dispose ∈ releases) : (r.afterReleases releases).holding = .disposed := by
  rw [release_eq, if_pos hgone]

/-- Only a spool whose file is gone answers an error when its samples are given up. -/
theorem dispose_answer (r : Reader) :
    r.dispose.1 = if r.holding = .spooled none then .error .spoolMissing else .ok () := by
  rw [dispose]
  split
  · next h => rw [if_pos h]
  · next h => rw [if_neg h]

/-- Clearing a spool leaves its file, and clearing samples in memory makes no file. -/
theorem afterReleases_spoolMissing (r : Reader) {releases : List Release}
    (hkept : .dispose ∉ releases) :
    (r.afterReleases releases).holding = .spooled none ↔ r.holding = .spooled none := by
  rw [release_eq, if_neg hkept]
  cases r.holding <;> simp [Holding.without]

end Reader

/-- A store in memory is sealed with all samples that were written. -/
theorem Writer.holding_of_sealed_buffered {w : Writer} {l : Ledger} {reader : Reader}
    (h : w.Follows l) (hmode : w.mode = .buffered) (hsealed : w.sealed = .ok reader) :
    reader.holding = .buffered l.samples := by
  obtain ⟨backing, start, tallies, count⟩ := w
  cases backing with
  | buffered latestFirst =>
    cases hsealed
    exact congrArg Holding.buffered h.backing.1
  | spooled frames pending => cases hmode

namespace Reader

theorem withoutSpool_of_buffered {r : Reader} {samples : List Sample}
    (h : r.holding = .buffered samples) : r.withoutSpool = r := by
  simp only [withoutSpool, h]

theorem withoutSpool_of_spooled {r : Reader} {file : Option (List UInt8)}
    (h : r.holding = .spooled file) : r.withoutSpool = { r with holding := .spooled none } := by
  simp only [withoutSpool, h]

/-- A store in memory has no spool file that could be removed. -/
theorem eq_of_sealed_buffered {ops : List Writing} {intact reader : Reader}
    (hsealed : (Writer.after .buffered ops).sealed = .ok intact)
    (hreader : reader = intact ∨ reader = intact.withoutSpool) :
    reader = intact ∧ intact.holding = .buffered (Ledger.run ops).2.samples := by
  obtain ⟨hfollows, hmode⟩ := Writer.follows_after .buffered ops
  have hholding := Writer.holding_of_sealed_buffered hfollows hmode hsealed
  rw [withoutSpool_of_buffered hholding, or_self] at hreader
  exact ⟨hreader, hholding⟩

/-- A spool stays a spool when its file is removed. -/
theorem holding_of_sealed_spooled {ops : List Writing} {intact reader : Reader}
    (hsealed : (Writer.after .spooled ops).sealed = .ok intact)
    (hreader : reader = intact ∨ reader = intact.withoutSpool) :
    ∃ file, reader.holding = .spooled file := by
  obtain ⟨hfollows, hmode⟩ := Writer.follows_after .spooled ops
  have hholding := Writer.holding_of_sealed hfollows hmode hsealed
  rcases hreader with rfl | rfl
  · exact ⟨_, hholding⟩
  · rw [withoutSpool_of_spooled hholding]
    exact ⟨none, rfl⟩

/-- Removing a spool file and giving samples up change what a store holds, and nothing else. -/
theorem rest_afterReleases {intact reader : Reader}
    (hreader : reader = intact ∨ reader = intact.withoutSpool) (releases : List Release) :
    (reader.afterReleases releases).aggregates = intact.aggregates ∧
      (reader.afterReleases releases).keys = intact.keys ∧
      (reader.afterReleases releases).count = intact.count ∧
      (reader.afterReleases releases).mode = intact.mode := by
  rw [release_eq]
  rcases hreader with rfl | rfl
  · exact ⟨rfl, rfl, rfl, rfl⟩
  · obtain ⟨holding, mode, keys, count, aggregates⟩ := intact
    cases holding <;> exact ⟨rfl, rfl, rfl, rfl⟩

/-- Nothing happens any more after the samples are given up. -/
theorem afterReleases_split (r : Reader) (before after : List Release) :
    (r.afterReleases (before ++ [.dispose])).holding = .disposed ∧
      performAll release (r.afterReleases (before ++ [.dispose])) after =
        (after.map fun _ => .ok (), r.afterReleases (before ++ [.dispose])) ∧
      r.afterReleases (before ++ .dispose :: after) =
        r.afterReleases (before ++ [.dispose]) := by
  have hgone := afterReleases_of_dispose r
    (List.mem_append_right before (List.mem_singleton_self Release.dispose))
  have hlater := release_of_disposed hgone after
  refine ⟨hgone, hlater, ?_⟩
  rw [List.append_cons, afterReleases, performAll_append]
  exact congrArg (·.2) hlater

/-- **Giving samples up touches only what it should.**  Take a sealed store, with its spool file or
after that was removed, and any releases.  The aggregates, keys, count and mode stay.  Before the
samples are given up, a spool is what it was, and a store in memory shows every sample with its
start and every value that was not cleared.  From the first time on that they are given up, also if
that answers an error because the file is gone, nothing is left but an error that says so, and every
further release answers that all is well and does nothing. -/
theorem released_keeps_rest {mode : StoreMode} {ops : List Writing} {intact reader : Reader}
    (hsealed : (Writer.after mode ops).sealed = .ok intact)
    (hreader : reader = intact ∨ reader = intact.withoutSpool) (releases : List Release) :
    let released := reader.afterReleases releases
    (released.aggregates = intact.aggregates ∧ released.keys = intact.keys ∧
      released.count = intact.count ∧ released.mode = intact.mode) ∧
      (mode = .spooled → .dispose ∉ releases → released = reader) ∧
      (mode = .buffered → .dispose ∉ releases → ∃ written left : List Sample,
        written = (Ledger.run ops).2.samples ∧ reader.Tells written none ∧
        released.Tells left none ∧ left.map (·.start) = written.map (·.start) ∧
        (∀ name, .clear name ∉ releases →
          left.map (·.values.find? name) = written.map (·.values.find? name)) ∧
        ∀ name, .clear name ∈ releases → (∀ s ∈ left, s.values.find? name = none) ∧
          released.values name = .ok (written.map fun _ => none)) ∧
      ∀ before after, releases = before ++ .dispose :: after →
        (.dispose ∉ before → ((reader.afterReleases before).release .dispose).1 =
          if reader.holding = .spooled none then .error .spoolMissing else .ok ()) ∧
        performAll release (reader.afterReleases (before ++ [.dispose])) after =
          (after.map fun _ => .ok (), reader.afterReleases (before ++ [.dispose])) ∧
        released = reader.afterReleases (before ++ [.dispose]) ∧
        released.isDisposed ∧ released.hasSpool = false ∧ released.Tells [] (some .disposed) := by
  refine ⟨rest_afterReleases hreader releases, ?_, ?_, fun before after hsplit => ?_⟩
  · rintro rfl hkept
    obtain ⟨file, hfile⟩ := holding_of_sealed_spooled hsealed hreader
    exact afterReleases_of_spooled hfile hkept
  · rintro rfl hkept
    obtain ⟨rfl, hholding⟩ := eq_of_sealed_buffered hsealed hreader
    have htells := tells_of_cleared hholding hkept
    refine ⟨_, _, rfl, tells_of_buffered hholding, htells, ?_, fun name hname => ?_,
      fun name hname => ?_⟩
    · rw [List.map_map]
      rfl
    · exact Sample.map_find?_without (mt Release.mem_names.1 hname) _
    · have hcleared := Sample.map_find?_without_of_mem (Release.mem_names.2 hname)
        (Ledger.run ops).2.samples
      refine ⟨fun s hs => ?_, (htells.values name).trans (congrArg Except.ok hcleared)⟩
      have hmem := List.mem_map_of_mem (f := (·.values.find? name)) hs
      rw [hcleared] at hmem
      obtain ⟨-, -, hnone⟩ := List.mem_map.1 hmem
      exact hnone.symm
  · obtain ⟨hgone, hlater, hlast⟩ := afterReleases_split reader before after
    rw [hsplit, hlast]
    refine ⟨fun hfirst => ?_, hlater, rfl, tells_of_disposed hgone⟩
    rw [Reader.release, dispose_answer]
    simp only [afterReleases_spoolMissing reader hfirst]

/-- A store in memory of two samples whose values of one metric are cleared, and a spool whose file
was removed. -/
theorem released_keeps_rest_two_samples :
    let ops : List Writing := [.write (.ofList [("m", 3), ("user", 7)]), .write (.ofList [("m", 4)])]
    (∃ reader, (Writer.after .buffered ops).sealed = .ok reader ∧
      (reader.afterReleases [.clear "m"]).values "m" = .ok [none, none] ∧
      (reader.afterReleases [.clear "m"]).summary? "m" = reader.summary? "m") ∧
    ∃ reader, (Writer.after .spooled ops).sealed = .ok reader ∧
      reader.withoutSpool.dispose.1 = .error .spoolMissing ∧
      (reader.withoutSpool.afterReleases [.dispose, .clear "m"]).Tells [] (some .disposed) := by
  intro ops
  have hfits : ∀ s ∈ (Ledger.run ops).2.samples, Ledger.Fits s := by decide +kernel
  obtain ⟨-, memory, hmemory, -⟩ := Writer.sealed_after hfits .buffered
  obtain ⟨-, spool, hspool, -⟩ := Writer.sealed_after hfits .spooled
  refine ⟨⟨memory, hmemory, ?_, ?_⟩, spool, hspool, ?_, ?_⟩
  · obtain ⟨-, -, hbuffered, -⟩ := released_keeps_rest hmemory (.inl rfl) [.clear "m"]
    obtain ⟨written, left, hwritten, -, -, -, -, hcleared⟩ := hbuffered rfl (by decide)
    have htwo : written.length = 2 := by
      rw [hwritten]
      decide +kernel
    rw [(hcleared "m" (by decide)).2, List.map_const', htwo]
    rfl
  · obtain ⟨⟨haggregates, -⟩, -⟩ := released_keeps_rest hmemory (.inl rfl) [.clear "m"]
    rw [summary?, haggregates, summary?]
  · obtain ⟨-, -, -, hdisposed⟩ := released_keeps_rest hspool (.inr rfl) [.dispose, .clear "m"]
    obtain ⟨hanswer, -⟩ := hdisposed [] [.clear "m"] rfl
    have hholding := Writer.holding_of_sealed (Writer.follows_after .spooled ops).1
      (Writer.follows_after .spooled ops).2 hspool
    refine (hanswer (by decide)).trans (if_pos ?_)
    rw [withoutSpool_of_spooled hholding]
  · obtain ⟨-, -, -, hdisposed⟩ := released_keeps_rest hspool (.inr rfl) [.dispose, .clear "m"]
    exact (hdisposed [] [.clear "m"] rfl).2.2.2.2.2

end Reader

end Gauge
