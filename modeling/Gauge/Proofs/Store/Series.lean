import Gauge.Proofs.Named
import Gauge.Store.Reader

/-!
# What accumulators have counted

The accumulators of a store count the values of its samples.  The one of a metric has counted the
series of that metric, in sample order, and there is one exactly where the series is not empty.

## Main definitions

* `series` — the values of one metric in samples.
* `Tallies.ofSamples` — the accumulators after all values of samples.
* `metrics` — the names of all values of samples.

## Main statements

* `Tallies.find?_ofSamples` — the accumulator of a metric has counted its series.
* `Tallies.push_ofSamples` — a value that is attached to the last sample can be counted at once.
-/

namespace Gauge

/-- The values of one metric in samples, in order. -/
def series (samples : List Sample) (name : String) : List Int64 :=
  samples.filterMap fun s => s.values.find? name

/-- The names of all values of samples. -/
def metrics (samples : List Sample) : NameSet :=
  NameSet.ofNames (samples.flatMap fun s => s.values.names)

/-- The accumulator of a series, once it has a value. -/
def tallyOf? (vs : List Int64) : Option Tally :=
  if vs = [] then none else some (Running.ofSeries vs)

theorem series_append (ss ts : List Sample) (name : String) :
    series (ss ++ ts) name = series ss name ++ series ts name := by
  simp [series]

theorem series_singleton (s : Sample) (name : String) :
    series [s] name = (s.values.find? name).toList := by
  cases h : s.values.find? name <;> simp [series, h]

theorem series_eq_nil_iff {samples : List Sample} {name : String} :
    series samples name = [] ↔ ∀ s ∈ samples, s.values.contains name = false := by
  simp [series, Named.contains_eq_false_iff]

/-- A metric that no sample lacks has its series as values. -/
theorem map_some_series {samples : List Sample} {name : String}
    (h : ∀ s ∈ samples, s.values.contains name) :
    (series samples name).map some = samples.map fun s => s.values.find? name := by
  induction samples with
  | nil => rfl
  | cons s samples ih =>
    obtain ⟨v, hv⟩ := Option.isSome_iff_exists.1 (h s List.mem_cons_self)
    have hrest := ih fun x hx => h x (List.mem_cons_of_mem s hx)
    rw [← List.singleton_append, series_append, series_singleton, hv, List.map_append, hrest]
    simp [hv]

/-- So it has one value for each. -/
theorem length_series {samples : List Sample} {name : String}
    (h : ∀ s ∈ samples, s.values.contains name) :
    (series samples name).length = samples.length := by
  simpa using congrArg List.length (map_some_series h)

namespace Tallies

/-- Counts values with an accumulator that may be missing yet. -/
def count (tally : Option Tally) (vs : List Int64) : Option Tally :=
  vs.foldl (fun tally v => some ((tally.getD Running.empty).push v)) tally

/-- The accumulators after all values of samples, on top of those before. -/
def pushSamples (t : Tallies) (samples : List Sample) : Tallies :=
  samples.foldl (fun t s => t.pushAll s.values) t

def ofSamples (samples : List Sample) : Tallies := pushSamples Named.empty samples

theorem count_append (tally : Option Tally) (vs ws : List Int64) :
    count tally (vs ++ ws) = count (count tally vs) ws :=
  List.foldl_append

theorem count_some (tally : Tally) (vs : List Int64) :
    count (some tally) vs = some (tally.pushAll vs) := by
  induction vs generalizing tally with
  | nil => rfl
  | cons v vs ih =>
    have hstep : count (some tally) (v :: vs) = count (some (tally.push v)) vs := rfl
    rw [hstep, ih, Running.pushAll_cons]

theorem count_none (vs : List Int64) : count none vs = tallyOf? vs := by
  cases vs with
  | nil => rfl
  | cons v vs =>
    have hstep : count none (v :: vs) = count (some (Running.empty.push v)) vs := rfl
    rw [hstep, count_some, tallyOf?, if_neg (List.cons_ne_nil v vs)]
    rfl

theorem find?_push (t : Tallies) (name other : String) (v : Int64) :
    (push t name v).find? other =
      if other = name then count (t.find? name) [v] else t.find? other :=
  Named.find?_alter t name other _

/-- Counting a table counts the value that it gives to a name, if there is one. -/
theorem find?_pushAll (t : Tallies) (values : Named Int64) (name : String) :
    (pushAll t values).find? name = count (t.find? name) (values.find? name).toList := by
  obtain ⟨entries, sorted⟩ := values
  simp only [pushAll, Named.find?]
  induction entries generalizing t with
  | nil => rfl
  | cons e entries ih =>
    obtain ⟨he, hsorted⟩ := List.pairwise_cons.1 sorted
    rw [List.foldl_cons, ih _ hsorted]
    by_cases hname : e.1 = name
    · have hlast : Named.lookup name entries = none :=
        Named.lookup_eq_none fun x hx => hname ▸ ne_of_gt (he x hx)
      have hpush := find?_push t e.1 name e.2
      rw [if_pos hname.symm] at hpush
      simp only [Named.lookup, if_pos hname, hlast, Option.toList_none, Option.toList_some]
      exact hname ▸ hpush
    · have hpush := find?_push t e.1 name e.2
      rw [if_neg (Ne.symm hname)] at hpush
      simp only [Named.lookup, if_neg hname]
      exact congrArg (count · _) hpush

theorem find?_pushSamples (t : Tallies) (samples : List Sample) (name : String) :
    (pushSamples t samples).find? name = count (t.find? name) (series samples name) := by
  induction samples generalizing t with
  | nil => rfl
  | cons s samples ih =>
    have hstep : pushSamples t (s :: samples) = pushSamples (pushAll t s.values) samples := rfl
    have hseries : series (s :: samples) name
        = (s.values.find? name).toList ++ series samples name := by
      rw [← series_singleton, ← series_append, List.singleton_append]
    rw [hstep, ih, find?_pushAll, hseries, count_append]

/-- The accumulator of a metric has counted the series of that metric. -/
@[simp] theorem find?_ofSamples (samples : List Sample) (name : String) :
    (ofSamples samples).find? name = tallyOf? (series samples name) := by
  rw [ofSamples, find?_pushSamples, Named.find?_empty, count_none]

theorem ofSamples_concat (samples : List Sample) (s : Sample) :
    ofSamples (samples ++ [s]) = pushAll (ofSamples samples) s.values := by
  simp [ofSamples, pushSamples]

/-- A value with a new name that is attached to the last sample can be counted at once. -/
theorem push_ofSamples {samples : List Sample} {s : Sample} {name : String} (v : Int64)
    (hnew : s.values.find? name = none) :
    push (ofSamples (samples ++ [s])) name v =
      ofSamples (samples ++ [{ s with values := s.values.insert name v }]) := by
  apply Named.ext_find?
  intro other
  rw [find?_push, find?_ofSamples, find?_ofSamples, find?_ofSamples]
  simp only [series_append, series_singleton, Named.find?_insert]
  by_cases hother : other = name
  · subst hother
    rw [if_pos rfl, if_pos rfl, hnew, Option.toList_none, List.append_nil, Option.toList_some,
      ← count_none, ← count_none, count_append]
  · rw [if_neg hother, if_neg hother]

/-- The metrics that were counted are those of the samples. -/
theorem map_ofSamples (samples : List Sample) :
    (ofSamples samples).map (fun _ => ()) = metrics samples := by
  apply Named.ext_find?
  intro name
  rw [Named.find?_map, find?_ofSamples, metrics, Named.find?_ofNames]
  by_cases hempty : series samples name = []
  · have hnone : name ∉ samples.flatMap fun s => s.values.names := by
      rw [series_eq_nil_iff] at hempty
      simpa [Named.mem_names_iff] using hempty
    rw [if_neg hnone, tallyOf?, if_pos hempty, Option.map_none]
  · have hsome : name ∈ samples.flatMap fun s => s.values.names := by
      rw [series_eq_nil_iff] at hempty
      simpa [Named.mem_names_iff] using hempty
    rw [if_pos hsome, tallyOf?, if_neg hempty, Option.map_some]

end Tallies

/-- Counting the samples of a walk without errors. -/
theorem Reader.tally_map_ok (t : Tallies) (samples : List Sample) :
    Reader.tally t (samples.map .ok) = .ok (t.pushSamples samples) := by
  induction samples generalizing t with
  | nil => rfl
  | cons s samples ih =>
    rw [List.map_cons, Reader.tally, ih]
    rfl

end Gauge
