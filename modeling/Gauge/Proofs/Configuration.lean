import Mathlib
import Gauge.Configuration.Export
import Gauge.Proofs.Named

/-!
# Which configurations are valid, and what survives when they are written

The checks of a configuration that need no collectors accept exactly what is valid.  A configuration
is written and read again with all its parameters but the deadline, which is written in whole
milliseconds that fit a word.  So it comes back as it was exactly if its deadline is such a number of
milliseconds.

## Main definitions

* `Configuration.Invalid` — what can be wrong with a configuration.
* `Duration.inWord` — a span as a configuration keeps it.
* `Configuration.Counted` — the counts of a configuration are words.

## Main statements

* `Configuration.validate_eq_ok_iff` — what the checks accept.
* `Duration.isGreatest_inWord`, `Duration.inWord_eq_self_iff` — which part of a span is kept.
* `Configuration.ofJson?_toJson` — what is read from a configuration that was written.
* `Configuration.validate_inWord_of_short` — a valid deadline that is too short to survive.
* `Configuration.survives_but_deadline` — what a valid configuration keeps.
-/

namespace Gauge

/-! ## Validity -/

namespace Configuration

variable {c : Configuration}

theorem thresholdOk_iff {threshold : Float} :
    thresholdOk threshold ↔ threshold.isFinite ∧ ¬ threshold < 0.0 := by
  simp [thresholdOk]

/-- What can be wrong with a configuration that nothing is measured with yet. -/
inductive Invalid (c : Configuration) : Misconfiguration → Prop
  | noRepetitions (h : c.repetitions = 0) : Invalid c .noRepetitions
  | noTime (h : c.timeout.nanos = 0) : Invalid c .noTime
  | badThreshold {metric : String} {threshold : Float}
      (h : (metric, threshold) ∈ c.thresholds.entries)
      (hbad : ¬ (threshold.isFinite ∧ ¬ threshold < 0.0)) :
      Invalid c (.badThreshold metric threshold)

theorem validate_eq_ok_iff :
    c.validate = .ok () ↔ 1 ≤ c.repetitions ∧ 0 < c.timeout.nanos ∧
      ∀ e ∈ c.thresholds.entries, e.2.isFinite ∧ ¬ e.2 < 0.0 := by
  simp only [← thresholdOk_iff]
  rw [validate]
  by_cases hrepetitions : c.repetitions = 0
  · simp [hrepetitions]
  · by_cases htime : c.timeout.nanos = 0
    · simp [hrepetitions, htime]
    · have hfirst : firstRefused c.thresholds (fun _ t => thresholdOk t) = none ↔
          ∀ e ∈ c.thresholds.entries, thresholdOk e.2 := by
        simp [firstRefused]
      rw [if_neg hrepetitions, if_neg htime, ← hfirst]
      have hone : 1 ≤ c.repetitions := by omega
      have hpos : 0 < c.timeout.nanos := by omega
      cases firstRefused c.thresholds fun _ t => thresholdOk t <;> simp [hone, hpos]

theorem invalid_of_validate {cause : Misconfiguration} (h : c.validate = .error cause) :
    c.Invalid cause := by
  rw [validate] at h
  by_cases hrepetitions : c.repetitions = 0
  · rw [if_pos hrepetitions] at h
    cases h
    exact .noRepetitions hrepetitions
  · rw [if_neg hrepetitions] at h
    by_cases htime : c.timeout.nanos = 0
    · rw [if_pos htime] at h
      cases h
      exact .noTime htime
    · rw [if_neg htime] at h
      cases hfirst : firstRefused c.thresholds fun _ t => thresholdOk t with
      | none => simp [hfirst] at h
      | some e =>
        simp only [hfirst] at h
        cases h
        have hbad : thresholdOk e.2 = false := by simpa using List.find?_some hfirst
        refine .badThreshold (List.mem_of_find?_eq_some hfirst) ?_
        rw [← thresholdOk_iff, hbad]
        exact Bool.false_ne_true

end Configuration

/-! ## Values that are written and read -/

namespace Json

theorem nat?_int {n : Nat} (h : n < UInt64.size) : (int n).nat? = some n := by
  have hn : (0 : Int) ≤ n ∧ (n : Int) < UInt64.size := ⟨by omega, by exact_mod_cast h⟩
  rw [nat?, if_pos hn, Int.toNat_natCast]

theorem value?_int (v : Int64) : (int v.toInt).value? = some v := by
  rw [value?, if_pos ⟨v.minValue_le_toInt, v.toInt_le⟩, Int64.ofInt_toInt]

/-- A list is read as a whole when each of its elements is. -/
theorem mapM_eq_some {α β : Type} {f : α → Option β} {g : α → β} {l : List α}
    (h : ∀ a ∈ l, f a = some (g a)) : l.mapM f = some (l.map g) := by
  induction l with
  | nil => rfl
  | cons a l ih =>
    rw [List.mapM_cons, h a List.mem_cons_self, ih fun b hb => h b (List.mem_cons_of_mem _ hb)]
    rfl

/-- A table is read as it was written when each of its values is. -/
theorem table?_object {α : Type} (write : α → Json) (read : Json → Option α)
    (h : ∀ a, read (write a) = some a) (t : Named α) :
    (object (t.entries.map fun e => (e.1, write e.2))).table? read = some t := by
  have hentries : (t.entries.map fun e => (e.1, write e.2)).mapM
      (fun e : String × Json => (read e.2).map (e.1, ·)) = some t.entries := by
    rw [List.mapM_map, mapM_eq_some (g := id), List.map_id]
    intro e _
    simp [h]
  rw [table?, hentries, Option.map_some, Named.ofList_entries]

theorem nameSet?_array (t : NameSet) : (array (t.names.map string)).nameSet? = some t := by
  have hnames : (t.names.map string).mapM text? = some t.names := by
    rw [List.mapM_map, mapM_eq_some (g := id), List.map_id]
    exact fun _ _ => rfl
  have hpairs : t.names.map (·, ()) = t.entries := by
    rw [Named.names, List.map_map]
    exact List.map_id _
  rw [nameSet?, hnames, Option.map_some, NameSet.ofNames, hpairs, Named.ofList_entries]

/-- A member is found by its name when no other one has that name. -/
theorem member?_of_mem {members : List (String × Json)} (h : (members.map (·.1)).Nodup)
    {e : String × Json} (he : e ∈ members) : member? members e.1 = some e.2 := by
  have honly : members.filter (fun d => d.1 = e.1) = [e] := by
    induction members with
    | nil => cases he
    | cons d members ih =>
      obtain ⟨hd, hmembers⟩ := List.nodup_cons.1 h
      rcases List.mem_cons.1 he with rfl | he
      · have hnone : members.filter (fun d => d.1 = e.1) = [] :=
          List.filter_eq_nil_iff.2 fun d hmem hname =>
            hd (List.mem_map.2 ⟨d, hmem, of_decide_eq_true hname⟩)
        rw [List.filter_cons_of_pos (by simp), hnone]
      · have hname : d.1 ≠ e.1 := fun heq => hd (List.mem_map.2 ⟨e, he, heq.symm⟩)
        rw [List.filter_cons_of_neg (by simpa using hname), ih hmembers he]
  rw [member?, honly]

/-- All members are found under names that differ. -/
theorem mapM_member?_zip {names : List String} {values : List Json} (h : names.Nodup)
    (hlength : names.length = values.length) :
    names.mapM (member? (names.zip values)) = some values := by
  have hnames : (names.zip values).map (·.1) = names := List.map_fst_zip hlength.le
  have hvalues : (names.zip values).map (·.2) = values := List.map_snd_zip hlength.ge
  calc names.mapM (member? (names.zip values))
    _ = ((names.zip values).map (·.1)).mapM (member? (names.zip values)) := by rw [hnames]
    _ = (names.zip values).mapM (member? (names.zip values) ·.1) := List.mapM_map
    _ = some ((names.zip values).map (·.2)) :=
      mapM_eq_some fun _ he => member?_of_mem (hnames.symm ▸ h) he
    _ = some values := by rw [hvalues]

end Json

/-! ## The deadline -/

namespace Duration

/-- A span as a configuration keeps it: in whole milliseconds that fit a word. -/
def inWord (d : Duration) : Duration := .ofMillis (.ofNat d.wholeMillis)

theorem nanos_inWord (d : Duration) :
    d.inWord.nanos = min (d.nanos / 1000000) (UInt64.size - 1) * 1000000 := by
  have hword : d.wholeMillis < UInt64.size := by
    simp only [wholeMillis, UInt64.size]
    omega
  have hnat : (UInt64.ofNat d.wholeMillis).toNat = d.wholeMillis :=
    UInt64.toNat_ofNat_of_lt' hword
  show (UInt64.ofNat d.wholeMillis).toNat * 1000000 = _
  rw [hnat, wholeMillis, millis]

/-- The longest span of a word of milliseconds is kept that is not longer than the given one. -/
theorem isGreatest_inWord (d : Duration) :
    IsGreatest {n | n ≤ d.nanos ∧ ∃ ms, n = (ofMillis ms).nanos} d.inWord.nanos := by
  constructor
  · refine ⟨?_, _, rfl⟩
    rw [nanos_inWord]
    omega
  · rintro n ⟨hn, ms, rfl⟩
    have hms := ms.toNat_lt_size
    rw [nanos_inWord]
    simp only [ofMillis] at *
    omega

/-- A span is kept as it is exactly if it is a word of milliseconds. -/
theorem inWord_eq_self_iff {d : Duration} : d.inWord = d ↔ ∃ ms, d = .ofMillis ms := by
  constructor
  · exact fun h => ⟨_, h.symm⟩
  · rintro ⟨ms, rfl⟩
    have hgreatest := isGreatest_inWord (ofMillis ms)
    exact ext (le_antisymm hgreatest.1.1 (hgreatest.2 ⟨le_rfl, ms, rfl⟩))

theorem inWord_pos_iff {d : Duration} : 0 < d.inWord.nanos ↔ (ofMillis 1).nanos ≤ d.nanos := by
  have hone : (ofMillis 1).nanos = 1000000 := rfl
  rw [nanos_inWord, hone, UInt64.size]
  omega

end Duration

/-! ## The whole configuration -/

namespace Configuration

variable {c : Configuration}

/-- The counts of a configuration are 64-bit words. -/
structure Counted (c : Configuration) : Prop where
  warmup : c.warmup < UInt64.size
  executions : c.executions < UInt64.size
  repetitions : c.repetitions < UInt64.size
  minEarlyStop : c.minEarlyStop < UInt64.size

theorem ofValues?_memberValues (h : c.Counted) :
    ofValues? c.memberValues = some { c with timeout := c.timeout.inWord } := by
  have htimeout : c.timeout.wholeMillis < UInt64.size := by
    simp only [Duration.wholeMillis, UInt64.size]
    omega
  simp only [ofValues?, memberValues, Json.nat?_int h.warmup, Json.nat?_int h.executions,
    Json.nat?_int h.repetitions, Json.nat?_int h.minEarlyStop, Json.nat?_int htimeout,
    Json.table?_object .float Json.real? fun _ => rfl,
    Json.table?_object (fun v => .int v.toInt) Json.value? Json.value?_int, Json.nameSet?_array]
  rfl

/-- **What is written is read again**, with the deadline that was kept. -/
theorem ofJson?_toJson (h : c.Counted) :
    ofJson? c.toJson = some { c with timeout := c.timeout.inWord } := by
  rw [toJson, ofJson?, Json.mapM_member?_zip (by decide) rfl, Option.bind_some,
    ofValues?_memberValues h]

/-- What is read is valid again when something is left of the deadline. -/
theorem validate_inWord (hvalid : c.validate = .ok ())
    (h : (Duration.ofMillis 1).nanos ≤ c.timeout.nanos) :
    Configuration.validate { c with timeout := c.timeout.inWord } = .ok () := by
  obtain ⟨hrepetitions, -, hthresholds⟩ := validate_eq_ok_iff.1 hvalid
  exact validate_eq_ok_iff.2 ⟨hrepetitions, Duration.inWord_pos_iff.2 h, hthresholds⟩

/-- A deadline below one millisecond is written as none at all, and what is read is refused. -/
theorem validate_inWord_of_short (hvalid : c.validate = .ok ())
    (h : c.timeout.nanos < (Duration.ofMillis 1).nanos) :
    Configuration.validate { c with timeout := c.timeout.inWord } = .error .noTime := by
  obtain ⟨hrepetitions, -, -⟩ := validate_eq_ok_iff.1 hvalid
  have hsome : ¬ c.repetitions = 0 := by omega
  have hnone : c.timeout.inWord.nanos = 0 :=
    Nat.eq_zero_of_not_pos (mt Duration.inWord_pos_iff.1 (not_le.2 h))
  rw [validate, if_neg hsome, if_pos hnone]

/-- **A valid configuration survives but for its deadline.**  It is read again with all its other
parameters, and as it was exactly if its deadline is a word of milliseconds.  Of a deadline of at
least one millisecond the longest such span is kept that is not longer, and what is read is valid. -/
theorem survives_but_deadline (hcounted : c.Counted) (hvalid : c.validate = .ok ()) :
    ∃ d, ofJson? c.toJson = some d ∧ d = { c with timeout := d.timeout } ∧
      (d = c ↔ ∃ ms, c.timeout = .ofMillis ms) ∧
      ((Duration.ofMillis 1).nanos ≤ c.timeout.nanos →
        IsGreatest {n | n ≤ c.timeout.nanos ∧ ∃ ms, n = (Duration.ofMillis ms).nanos}
          d.timeout.nanos ∧
        d.validate = .ok ()) := by
  refine ⟨_, ofJson?_toJson hcounted, rfl, ?_, fun h => ⟨?_, validate_inWord hvalid h⟩⟩
  · rw [← Duration.inWord_eq_self_iff]
    exact ⟨fun h => congrArg timeout h, fun h => by rw [h]⟩
  · exact c.timeout.isGreatest_inWord

/-- A configuration with a value in every parameter, and two and a half milliseconds. -/
def detailed : Configuration where
  executions := 50
  thresholds := .ofList [("work", 0.05), ("rest", 0.5)]
  ceilings := .ofList [("work", -1000)]
  userMetrics := .ofNames ["size"]
  timeout := .ofNanos 2500000

theorem survives_but_deadline_detailed :
    detailed.Counted ∧ detailed.validate = .ok () ∧
    (Duration.ofMillis 1).nanos ≤ detailed.timeout.nanos ∧
    ∃ d, ofJson? detailed.toJson = some d ∧ d = { detailed with timeout := .ofMillis 2 } ∧
      d ≠ detailed ∧ d.validate = .ok () := by
  have hcounted : detailed.Counted := by constructor <;> decide
  have hvalid : detailed.validate = .ok () := by rfl
  have hlong : (Duration.ofMillis 1).nanos ≤ detailed.timeout.nanos := by decide
  obtain ⟨d, hread, hd, hsame, hkept⟩ := survives_but_deadline hcounted hvalid
  obtain ⟨hgreatest, hd'⟩ := hkept hlong
  have htimeout : d.timeout = .ofMillis 2 :=
    Duration.ext (hgreatest.unique detailed.timeout.isGreatest_inWord)
  have hnot : ¬ ∃ ms, detailed.timeout = .ofMillis ms := by
    rw [← Duration.inWord_eq_self_iff]
    decide
  rw [htimeout] at hd
  exact ⟨hcounted, hvalid, hlong, d, hread, hd, mt hsame.1 hnot, hd'⟩

/-- The default parameters with another deadline. -/
def within (d : Duration) : Configuration := { timeout := d }

theorem counted_within (d : Duration) : (within d).Counted := by
  have hdefaults : Counted {} := by constructor <;> decide
  exact ⟨hdefaults.warmup, hdefaults.executions, hdefaults.repetitions, hdefaults.minEarlyStop⟩

/-- A part of a millisecond is lost, and so is what a word of milliseconds cannot hold. -/
theorem not_survives_anyDeadline :
    ((within (.ofNanos 1500000)).Counted ∧ (within (.ofNanos 1500000)).validate = .ok () ∧
      ofJson? (within (.ofNanos 1500000)).toJson = some (within (.ofMillis 1)) ∧
      within (.ofMillis 1) ≠ within (.ofNanos 1500000)) ∧
    ((within (.ofSecs 18446744073709551615)).Counted ∧
      (within (.ofSecs 18446744073709551615)).validate = .ok () ∧
      ofJson? (within (.ofSecs 18446744073709551615)).toJson =
        some (within (.ofMillis 18446744073709551615)) ∧
      within (.ofMillis 18446744073709551615) ≠ within (.ofSecs 18446744073709551615)) := by
  have hread (d : Duration) : ofJson? (within d).toJson = some (within d.inWord) :=
    ofJson?_toJson (counted_within d)
  have hne {d e : Duration} (h : d ≠ e) : within d ≠ within e := fun heq => h (congrArg timeout heq)
  exact ⟨⟨counted_within _, rfl, hread _, hne (by decide)⟩,
    ⟨counted_within _, rfl, hread _, hne (by decide)⟩⟩

end Configuration

end Gauge
