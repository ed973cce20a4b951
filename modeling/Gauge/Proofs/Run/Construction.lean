import Gauge.Run.Basic
import Gauge.Proofs.Configuration
import Gauge.Proofs.Registry

/-!
# Which runs can be made

A run is made of a configuration and the collectors of a set.  The checks of the configuration, of
the set and of the three kinds of names together accept exactly what is consistent, and every refusal
names something that is not.

## Main definitions

* `Run.Consistent` — a configuration, a registry and a set of collectors that fit together.
* `Run.Inconsistent` — a cause that tells why they do not.

## Main statements

* `Run.checkNames_eq_ok_iff`, `Run.create_eq_ok_iff` — what each check accepts.
* `Run.ofRegistry_accepts` — a registry gives a run exactly for what is consistent.
-/

namespace Gauge

/-! ## Names -/

/-- Exactly a list that tells its names apart, and has none of those seen before, has no first name
that is repeated. -/
theorem firstRepeated_eq_none_iff {seen names : List String} :
    firstRepeated seen names = none ↔ names.Nodup ∧ ∀ n ∈ names, n ∉ seen := by
  induction names generalizing seen with
  | nil => simp [firstRepeated]
  | cons n ns ih =>
    rw [firstRepeated]
    by_cases hn : n ∈ seen
    · simp [hn]
    · rw [if_neg hn, ih]
      simp only [List.nodup_cons, List.mem_cons, not_or]
      grind

/-- The first name that is repeated was seen before, or stands in the list twice. -/
theorem of_firstRepeated {seen names : List String} {name : String}
    (h : firstRepeated seen names = some name) :
    name ∈ names ∧ (name ∈ seen ∨ 1 < names.count name) := by
  induction names generalizing seen with
  | nil => cases h
  | cons n ns ih =>
    rw [firstRepeated] at h
    by_cases hn : n ∈ seen
    · rw [if_pos hn] at h
      obtain rfl := Option.some.inj h
      exact ⟨List.mem_cons_self, .inl hn⟩
    · rw [if_neg hn] at h
      obtain ⟨hmem, hseen⟩ := ih h
      refine ⟨List.mem_cons_of_mem _ hmem, ?_⟩
      rw [List.count_cons]
      rcases hseen with hseen | hcount
      · rcases List.mem_cons.1 hseen with rfl | hseen
        -- a name that was noted on the way is met a second time in the rest
        · have hpos := List.count_pos_iff.2 hmem
          exact .inr (by simp; omega)
        · exact .inl hseen
      · exact .inr (by omega)

namespace Run

variable {κ : Type} {config : Configuration} {registry : Registry κ} {set : CollectorSet}
  {collectors : List (Collector κ)} {names : List String} {run : Run κ} {cause : Misconfiguration}

/-- What can be wrong with the names of collectors, user metrics and thresholds. -/
inductive Clashes (config : Configuration) (names : List String) : Misconfiguration → Prop
  | duplicate {name : String} (h : 1 < names.count name) :
      Clashes config names (.duplicateCollector name)
  | taken {metric : String} (h : metric ∈ config.userMetrics.names) (hname : metric ∈ names) :
      Clashes config names (.metricTaken metric)
  | unknown {metric : String} (h : metric ∈ config.thresholds.names) (hname : metric ∉ names)
      (huser : metric ∉ config.userMetrics.names) : Clashes config names (.unknownThreshold metric)

theorem checkNames_eq_ok_iff :
    checkNames config names = .ok () ↔ names.Nodup ∧
      (∀ metric ∈ config.userMetrics.names, metric ∉ names) ∧
      ∀ metric ∈ config.thresholds.names, metric ∈ names ∨ metric ∈ config.userMetrics.names := by
  have hdistinct : firstRepeated [] names = none ↔ names.Nodup := by
    simp [firstRepeated_eq_none_iff]
  have hfree : (config.userMetrics.names.find? fun m => m ∈ names) = none ↔
      ∀ metric ∈ config.userMetrics.names, metric ∉ names := by
    simp
  have hknown : (config.thresholds.names.find? fun m =>
        m ∉ names && !config.userMetrics.contains m) = none ↔
      ∀ metric ∈ config.thresholds.names, metric ∈ names ∨ metric ∈ config.userMetrics.names := by
    simp only [List.find?_eq_none, Named.mem_names_iff]
    simp [or_iff_not_imp_left]
  rw [← hdistinct, ← hfree, ← hknown, checkNames]
  cases firstRepeated [] names with
  | some name => simp
  | none =>
    cases config.userMetrics.names.find? fun m => m ∈ names with
    | some metric => simp
    | none =>
      cases config.thresholds.names.find? fun m => m ∉ names && !config.userMetrics.contains m <;>
        simp

theorem clashes_of_checkNames (h : checkNames config names = .error cause) :
    Clashes config names cause := by
  rw [checkNames] at h
  cases hrepeated : firstRepeated [] names with
  | some name =>
    rw [hrepeated] at h
    cases h
    exact .duplicate ((of_firstRepeated hrepeated).2.resolve_left List.not_mem_nil)
  | none =>
    rw [hrepeated] at h
    dsimp only at h
    cases htaken : config.userMetrics.names.find? fun m => m ∈ names with
    | some metric =>
      rw [htaken] at h
      cases h
      exact .taken (List.mem_of_find?_eq_some htaken) (by simpa using List.find?_some htaken)
    | none =>
      rw [htaken] at h
      dsimp only at h
      cases hunknown : config.thresholds.names.find? fun m =>
          m ∉ names && !config.userMetrics.contains m with
      | none =>
        rw [hunknown] at h
        cases h
      | some metric =>
        rw [hunknown] at h
        cases h
        have hnot : metric ∉ names ∧ config.userMetrics.contains metric = false := by
          simpa using List.find?_some hunknown
        refine .unknown (List.mem_of_find?_eq_some hunknown) hnot.1 ?_
        simp [Named.mem_names_iff, hnot.2]

/-! ## New runs -/

/-- **A run is made of a valid configuration whose names are consistent**, and it is new. -/
theorem create_eq_ok_iff :
    create config collectors = .ok run ↔
      config.validate = .ok () ∧ checkNames config (collectors.map (·.name)) = .ok () ∧
        run =
          { config := config
            collectors := collectors
            store := .writing (.ofPlanned config.executions) } := by
  rw [create]
  cases config.validate with
  | error cause => simp [bind, Except.bind]
  | ok _ =>
    cases checkNames config (collectors.map (·.name)) with
    | error cause => simp [bind, Except.bind]
    | ok _ => simp [bind, Except.bind, pure, Except.pure, eq_comm]

/-- A configuration, a registry and a set of collectors that fit together. -/
structure Consistent (config : Configuration) (registry : Registry κ) (set : CollectorSet) :
    Prop where
  registered : ∀ id ∈ set, registry.contains id
  repetitions : 1 ≤ config.repetitions
  timeout : 0 < config.timeout.nanos
  thresholds : ∀ e ∈ config.thresholds.entries, e.2.isFinite ∧ ¬ e.2 < 0.0
  /-- the collectors that can be made have different names, whatever their identifiers are -/
  distinct : ((registry.made set).map (·.name)).Nodup
  /-- no user metric has the name of a collector -/
  free : ∀ metric ∈ config.userMetrics.names, metric ∉ (registry.made set).map (·.name)
  /-- a threshold is about a collector or a user metric -/
  known : ∀ metric ∈ config.thresholds.names,
    metric ∈ (registry.made set).map (·.name) ∨ metric ∈ config.userMetrics.names

/-- A cause that tells why a configuration, a registry and a set do not fit together. -/
inductive Inconsistent (config : Configuration) (registry : Registry κ) (set : CollectorSet) :
    Misconfiguration → Prop
  | unregistered {id : String} (h : set.find? (fun i => !registry.contains i) = some id) :
      Inconsistent config registry set (.registry (.unknown id))
  | invalid {cause : Misconfiguration} (h : config.Invalid cause) :
      Inconsistent config registry set cause
  | clash {cause : Misconfiguration}
      (h : Clashes config ((registry.made set).map (·.name)) cause) :
      Inconsistent config registry set cause

theorem ofRegistry_eq_ok_iff :
    ofRegistry config registry set = .ok run ↔ Consistent config registry set ∧
      run =
        { config := config
          collectors := registry.made set
          store := .writing (.ofPlanned config.executions) } := by
  rw [ofRegistry]
  constructor
  · intro h
    cases hmade : registry.instantiate set with
    | error fault => simp [hmade] at h
    | ok collectors =>
      obtain ⟨hregistered, rfl⟩ := Registry.instantiate_eq_ok_iff.1 hmade
      simp only [hmade] at h
      obtain ⟨hvalid, hnames, hrun⟩ := create_eq_ok_iff.1 h
      obtain ⟨hrepetitions, htimeout, hthresholds⟩ := Configuration.validate_eq_ok_iff.1 hvalid
      obtain ⟨hdistinct, hfree, hknown⟩ := checkNames_eq_ok_iff.1 hnames
      exact ⟨⟨hregistered, hrepetitions, htimeout, hthresholds, hdistinct, hfree, hknown⟩, hrun⟩
  · rintro ⟨h, hrun⟩
    rw [Registry.instantiate_of_contains h.registered]
    exact create_eq_ok_iff.2
      ⟨Configuration.validate_eq_ok_iff.2 ⟨h.repetitions, h.timeout, h.thresholds⟩,
        checkNames_eq_ok_iff.2 ⟨h.distinct, h.free, h.known⟩, hrun⟩

/-- **Every refusal names something that is inconsistent.** -/
theorem inconsistent_of_ofRegistry (h : ofRegistry config registry set = .error cause) :
    Inconsistent config registry set cause := by
  rw [ofRegistry] at h
  cases hmade : registry.instantiate set with
  | error fault =>
    simp only [hmade] at h
    cases h
    obtain ⟨id, hid, rfl⟩ := Registry.instantiate_eq_error_iff.1 hmade
    exact .unregistered hid
  | ok collectors =>
    obtain ⟨-, rfl⟩ := Registry.instantiate_eq_ok_iff.1 hmade
    simp only [hmade, create] at h
    cases hvalid : config.validate with
    | error cause =>
      simp only [hvalid, bind, Except.bind] at h
      cases h
      exact .invalid (Configuration.invalid_of_validate hvalid)
    | ok _ =>
      cases hnames : checkNames config ((registry.made set).map (·.name)) with
      | error cause =>
        simp only [hvalid, hnames, bind, Except.bind] at h
        cases h
        exact .clash (clashes_of_checkNames hnames)
      | ok _ =>
        simp only [hvalid, hnames, bind, Except.bind] at h
        cases h

/-- **A registry gives a run exactly for what is consistent.**  Every refusal is a misconfiguration
that names something inconsistent; a threshold on a collector that was left out, because its
constructor failed, is one.  A run that is made has the collectors of the set in order, and it is open
and without samples, in the store mode for the planned iterations. -/
theorem ofRegistry_accepts (config : Configuration) (registry : Registry κ) (set : CollectorSet) :
    ((∃ run, ofRegistry config registry set = .ok run) ↔ Consistent config registry set) ∧
    (∀ cause, ofRegistry config registry set = .error cause →
      Inconsistent config registry set cause) ∧
    (∀ metric ∈ config.thresholds.names, metric ∉ (registry.made set).map (·.name) →
      metric ∉ config.userMetrics.names → ∃ cause, ofRegistry config registry set = .error cause) ∧
    ∀ run, ofRegistry config registry set = .ok run →
      run.config = config ∧ run.collectors = registry.made set ∧
        run.status = .open ∧ run.order = none ∧ run.collecting = false ∧ run.executions = 0 ∧
        run.earlyStopped = false ∧
        ∃ w, run.store = .writing w ∧ w.mode = .ofPlanned config.executions ∧ w.count = 0 ∧
          w.latest? = none ∧ w.tallies = ∅ := by
  refine ⟨?_, fun cause => inconsistent_of_ofRegistry, ?_, ?_⟩
  · simp [ofRegistry_eq_ok_iff]
  · intro metric hmetric hname huser
    cases h : ofRegistry config registry set with
    | error cause => exact ⟨cause, rfl⟩
    | ok run =>
      rcases (ofRegistry_eq_ok_iff.1 h).1.known metric hmetric with hmem | hmem
      · exact absurd hmem hname
      · exact absurd hmem huser
  · intro run h
    obtain rfl := (ofRegistry_eq_ok_iff.1 h).2
    refine ⟨rfl, rfl, rfl, rfl, rfl, rfl, rfl, _, rfl, ?_⟩
    cases hmode : StoreMode.ofPlanned config.executions with
    | buffered => simp [Writer.ofPlanned, Writer.ofMode, Writer.mode, Writer.latest?, hmode]; rfl
    | spooled => simp [Writer.ofPlanned, Writer.ofMode, Writer.mode, Writer.latest?, hmode]; rfl

/-- A registry in which an identifier is not the name of its collector, and another one fails. -/
def degraded : Registry Instrument where
  constructors := .ofList
    [("probe", .ok ⟨"work", 0, .playback { values := #[5], resumes := false }⟩),
      ("counters", .error ["no counters"])]

/-- A configuration with a threshold on one metric, and more iterations than are kept in memory. -/
def watching (metric : String) : Configuration where
  executions := 5000
  thresholds := .ofList [(metric, 0.5)]

/-- A threshold on the collector that is made is accepted, and one on the other is not. -/
theorem ofRegistry_accepts_degraded :
    Consistent (watching "work") degraded ["counters", "probe"] ∧
      (∃ run, ofRegistry (watching "work") degraded ["counters", "probe"] = .ok run ∧
        run.collectors = degraded.made ["counters", "probe"] ∧ run.status = .open ∧
        ∃ w, run.store = .writing w ∧ w.mode = .spooled ∧ w.count = 0) ∧
      ∃ cause, ofRegistry (watching "counters") degraded ["counters", "probe"] = .error cause := by
  have hconsistent : Consistent (watching "work") degraded ["counters", "probe"] :=
    ⟨by decide, by decide, by decide, by decide, by decide, by decide, by decide⟩
  obtain ⟨haccepted, -, -, hnew⟩ :=
    ofRegistry_accepts (watching "work") degraded ["counters", "probe"]
  obtain ⟨run, hrun⟩ := haccepted.2 hconsistent
  obtain ⟨-, hcollectors, hopen, -, -, -, -, w, hstore, hmode, hcount, -⟩ := hnew run hrun
  refine ⟨hconsistent, ⟨run, hrun, hcollectors, hopen, w, hstore, hmode, hcount⟩, ?_⟩
  exact (ofRegistry_accepts (watching "counters") degraded ["counters", "probe"]).2.2.1 "counters"
    (by decide) (by decide) (by decide)

end Run

end Gauge
