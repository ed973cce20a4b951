import Gauge.Overrides
import Gauge.Proofs.Named

/-!
# The layers of parameters

The options of the command line are over the settings file, and the file is over what a method
declares: one order for every parameter.  A text that is no duration and a name that is no preset
are refused in whichever layer they stand, also where a stronger layer would hide them; only the list
of a file hides its preset.

## Main definitions

* `Refused`, `given?` — whether a layer holds a text that cannot be read, and what it gives
  otherwise.
* `Settings.onMethod` — a method under the settings file.
* `Method.Layered`, `Suite.Layered` — a method and a suite under both layers.

## Main statements

* `Settings.applyToSuite_eq_ok`, `Suite.overridden_eq_ok` — what the layers make of a suite.
* `Suite.overridden_eq_error_iff` — when they are refused.
* `Suite.overridden_overridden` — twice is the same as once, also where something is refused.
* `Suite.overridden_layers` — the one order of the layers.
-/

namespace Gauge

/-! ## One parameter of one layer -/

section Parameter

variable {ε α : Type} {read : String → Except ε α}

/-- A text that is there and cannot be read. -/
def Refused (read : String → Except ε α) (text : Option String) : Prop :=
  ∃ t ∈ text, ∃ fault, read t = .error fault

/-- What a text gives that is there and can be read. -/
def given? (read : String → Except ε α) (text : Option String) : Option α :=
  text.bind fun t => (read t).toOption

theorem mapM_of_refused {text : Option String} (h : Refused read text) :
    ∃ fault, text.mapM read = .error fault := by
  obtain ⟨t, rfl, fault, hfault⟩ := h
  exact ⟨fault, by simp [Option.mapM, Functor.map, Except.map, hfault]⟩

theorem mapM_of_not_refused {text : Option String} (h : ¬ Refused read text) :
    text.mapM read = .ok (given? read text) := by
  cases text with
  | none => rfl
  | some t =>
    cases ht : read t with
    | error fault => exact absurd ⟨t, rfl, fault, ht⟩ h
    | ok a => simp [Option.mapM, Functor.map, Except.map, given?, Except.toOption, ht]

theorem given?_of_refused {text : Option String} (h : Refused read text) :
    given? read text = none := by
  obtain ⟨t, rfl, fault, hfault⟩ := h
  simp [given?, hfault, Except.toOption]

theorem Settings.duration?_eq_mapM (text : Option String) :
    Settings.duration? text = text.mapM Duration.parse := by
  cases text <;> rfl

def CollectorSet.presetNames : List String := ["standard", "extended", "only-time", "none"]

/-- Exactly the names of presets have a set. -/
theorem CollectorSet.refused_preset_iff {name : Option String} :
    Refused preset name ↔ ∃ n ∈ name, n ∉ presetNames := by
  have hpreset (n : String) : (∃ fault, preset n = .error fault) ↔ n ∉ presetNames := by
    constructor
    · rintro ⟨fault, hfault⟩ hmem
      simp only [presetNames, List.mem_cons, List.not_mem_nil, or_false] at hmem
      rcases hmem with rfl | rfl | rfl | rfl <;> cases hfault
    · intro h
      simp only [presetNames, List.mem_cons, List.not_mem_nil, or_false, not_or] at h
      exact ⟨.unknownPreset n, by simp [preset, h]⟩
  simp only [Refused, hpreset]

/-- A stronger layer that was applied once hides the weaker one and what was declared. -/
theorem getD_getD_self (a : Option α) (x : α) : a.getD (a.getD x) = a.getD x := by
  cases a <;> rfl

theorem getD_getD_getD (a b : Option α) (x : α) :
    a.getD (b.getD (a.getD (b.getD x))) = a.getD (b.getD x) := by
  cases a <;> cases b <;> rfl

end Parameter

/-! ## The settings file -/

namespace Settings

variable {κ : Type} {s : Settings} {set : Option CollectorSet} {c : Configuration}
  {methods : List (Method κ)} {suite : Suite κ}

/-- The set of collectors that a file selects: its list, or the set of its preset. -/
def selected? (s : Settings) : Option CollectorSet :=
  s.collectors.or (given? CollectorSet.preset s.preset)

/-- A file is refused for its preset if it has no list. -/
def PresetRefused (s : Settings) : Prop :=
  s.collectors = none ∧ Refused CollectorSet.preset s.preset

theorem collectorSet_of_refused (h : s.PresetRefused) : ∃ fault, s.collectorSet = .error fault := by
  obtain ⟨hnone, hrefused⟩ := h
  obtain ⟨n, hn, fault, hfault⟩ := hrefused
  exact ⟨fault, by simp [collectorSet, hnone, Option.mem_def.1 hn, hfault, Except.map]⟩

theorem collectorSet_of_not_refused (h : ¬ s.PresetRefused) : s.collectorSet = .ok s.selected? := by
  rw [collectorSet, selected?]
  cases hlist : s.collectors with
  | some ids => rfl
  | none =>
    cases hpreset : s.preset with
    | none => rfl
    | some n =>
      cases hn : CollectorSet.preset n with
      | error fault => exact absurd ⟨hlist, n, hpreset, fault, hn⟩ h
      | ok set => simp [given?, hn, Except.map, Except.toOption]

/-- A method under a settings file whose deadline and set of collectors are read already. -/
def onMethod (s : Settings) (timeout : Option Duration) (set : Option CollectorSet) (m : Method κ) :
    Method κ :=
  { m with
    collectors := set.getD m.collectors
    config := { m.config with
      warmup := s.warmup.getD m.config.warmup
      executions := s.iterations.getD m.config.executions
      repetitions := s.repetitions.getD m.config.repetitions
      minEarlyStop := s.minEarlyStop.getD m.config.minEarlyStop
      timeout := timeout.getD m.config.timeout
      thresholds := m.config.thresholds.extend s.thresholds.entries
      ceilings := m.config.ceilings.extend s.ceilings.entries } }

theorem onMethod_onMethod (s : Settings) (timeout : Option Duration) (set : Option CollectorSet)
    (m : Method κ) :
    s.onMethod timeout set (s.onMethod timeout set m) = s.onMethod timeout set m := by
  simp [onMethod, getD_getD_self, Named.extend_extend_self]

theorem applyToMethods_eq_ok (h : ¬ Refused Duration.parse s.timeout)
    (set : Option CollectorSet) (methods : List (Method κ)) :
    s.applyToMethods set methods =
      (.ok (), methods.map (s.onMethod (given? Duration.parse s.timeout) set)) := by
  have hread := duration?_eq_mapM s.timeout ▸ mapM_of_not_refused h
  induction methods with
  | nil => rfl
  | cons m ms ih => simp [applyToMethods, applyTo, hread, ih, onMethod]

/-- A bad deadline is found at the first method, and not without methods. -/
theorem applyToMethods_of_refused (h : Refused Duration.parse s.timeout)
    (set : Option CollectorSet) (methods : List (Method κ)) :
    (methods = [] ∧ s.applyToMethods set methods = (.ok (), [])) ∨
      (methods ≠ [] ∧ (∃ fault, (s.applyToMethods set methods).1 = .error fault) ∧
        s.applyToMethods set (s.applyToMethods set methods).2 = s.applyToMethods set methods) := by
  obtain ⟨fault, hfault⟩ := mapM_of_refused h
  rw [← duration?_eq_mapM] at hfault
  cases methods with
  | nil => exact .inl ⟨rfl, rfl⟩
  | cons m ms =>
    refine .inr ⟨List.cons_ne_nil m ms, ⟨fault, by simp [applyToMethods, applyTo, hfault]⟩, ?_⟩
    simp [applyToMethods, applyTo, hfault, getD_getD_self]

/-- A file is refused for the deadline of the suite, for its preset, or for the deadline of the
methods where there are any. -/
def SuiteRefused (s : Settings) (methods : List (Method κ)) : Prop :=
  Refused Duration.parse s.suiteTimeout ∨ (methods ≠ [] ∧ Refused Duration.parse s.timeout) ∨
    s.PresetRefused

/-- **What a settings file makes of a suite.** -/
theorem applyToSuite_eq_ok (h : ¬ s.SuiteRefused suite.methods) :
    s.applyToSuite suite = (.ok (),
      { suite with
        timeout := (given? Duration.parse s.suiteTimeout).getD suite.timeout
        methods :=
          suite.methods.map (s.onMethod (given? Duration.parse s.timeout) s.selected?) }) := by
  obtain ⟨hsuite, htimeout, hpreset⟩ :
      ¬ Refused Duration.parse s.suiteTimeout ∧
        (suite.methods ≠ [] → ¬ Refused Duration.parse s.timeout) ∧ ¬ s.PresetRefused := by
    simpa [SuiteRefused] using h
  have hread := duration?_eq_mapM s.suiteTimeout ▸ mapM_of_not_refused hsuite
  rw [applyToSuite, hread, collectorSet_of_not_refused hpreset]
  by_cases hnil : suite.methods = []
  · simp [hnil, applyToMethods, Except.mapError]
  · simp [applyToMethods_eq_ok (htimeout hnil), Except.mapError]

/-- **A settings file that is refused leaves a suite as it leaves it when it is applied again.** -/
theorem applyToSuite_of_refused (h : s.SuiteRefused suite.methods) :
    (∃ fault, (s.applyToSuite suite).1 = .error fault) ∧
      s.applyToSuite (s.applyToSuite suite).2 = s.applyToSuite suite := by
  by_cases hsuite : Refused Duration.parse s.suiteTimeout
  · obtain ⟨fault, hfault⟩ := mapM_of_refused hsuite
    rw [← duration?_eq_mapM] at hfault
    simp [applyToSuite, hfault]
  · have hread := duration?_eq_mapM s.suiteTimeout ▸ mapM_of_not_refused hsuite
    by_cases hpreset : s.PresetRefused
    · obtain ⟨fault, hfault⟩ := collectorSet_of_refused hpreset
      simp [applyToSuite, hread, hfault, getD_getD_self]
    · obtain ⟨hnil, htimeout⟩ := (h.resolve_left hsuite).resolve_right hpreset
      have hset := collectorSet_of_not_refused hpreset
      rcases applyToMethods_of_refused htimeout s.selected? suite.methods with
        ⟨hnil', -⟩ | ⟨-, ⟨fault, hfault⟩, htwice⟩
      · exact absurd hnil' hnil
      · simp [applyToSuite, hread, hset, hfault, htwice, getD_getD_self, Except.mapError]

end Settings

/-! ## The options of the command line -/

namespace Options

variable {κ : Type} {o : Options}

/-- Options are refused for a deadline or for the name of a preset. -/
def AnyRefused (o : Options) : Prop :=
  Refused Duration.parse o.suiteTimeout ∨ Refused Duration.parse o.timeout ∨
    Refused CollectorSet.preset o.collectors

theorem resolve_eq_ok (htimeout : ¬ Refused Duration.parse o.timeout)
    (hset : ¬ Refused CollectorSet.preset o.collectors) :
    o.resolve = .ok (given? Duration.parse o.timeout, given? CollectorSet.preset o.collectors) := by
  simp [resolve, Settings.duration?_eq_mapM, mapM_of_not_refused htimeout,
    mapM_of_not_refused hset, Except.mapError, bind, Except.bind, pure, Except.pure]

theorem resolve_of_refused
    (h : Refused Duration.parse o.timeout ∨ Refused CollectorSet.preset o.collectors) :
    ∃ fault, o.resolve = .error fault := by
  by_cases htimeout : Refused Duration.parse o.timeout
  · obtain ⟨fault, hfault⟩ := mapM_of_refused htimeout
    exact ⟨.duration fault, by
      simp [resolve, Settings.duration?_eq_mapM, hfault, Except.mapError, bind, Except.bind]⟩
  · obtain ⟨fault, hfault⟩ := mapM_of_refused (h.resolve_left htimeout)
    exact ⟨.collectors fault, by
      simp [resolve, Settings.duration?_eq_mapM, mapM_of_not_refused htimeout, hfault,
        Except.mapError, bind, Except.bind]⟩

/-- What a file would change again, the options hide again. -/
theorem applyTo_onMethod_self (o : Options) (s : Settings) (timeout fileTimeout : Option Duration)
    (set fileSet : Option CollectorSet) (m : Method κ) :
    o.applyTo timeout set (s.onMethod fileTimeout fileSet
        (o.applyTo timeout set (s.onMethod fileTimeout fileSet m))) =
      o.applyTo timeout set (s.onMethod fileTimeout fileSet m) := by
  simp [applyTo, Settings.onMethod, getD_getD_getD, Named.extend_extend_self]

end Options

/-! ## Both layers -/

/-- **A method under both layers.**  Every parameter is that of the options, else that of the file,
else its own; thresholds and ceilings are its own under those of the file; and nothing else
changes. -/
structure Method.Layered {κ : Type} (s : Settings) (o : Options) (m layered : Method κ) : Prop where
  name : layered.name = m.name
  factory : layered.factory = m.factory
  userMetrics : layered.config.userMetrics = m.config.userMetrics
  warmup : layered.config.warmup = (o.warmup.or s.warmup).getD m.config.warmup
  executions : layered.config.executions = (o.iterations.or s.iterations).getD m.config.executions
  repetitions :
    layered.config.repetitions = (o.repetitions.or s.repetitions).getD m.config.repetitions
  minEarlyStop :
    layered.config.minEarlyStop = (o.minEarlyStop.or s.minEarlyStop).getD m.config.minEarlyStop
  timeout : layered.config.timeout =
    ((given? Duration.parse o.timeout).or (given? Duration.parse s.timeout)).getD m.config.timeout
  thresholds : ∀ metric, layered.config.thresholds.find? metric =
    (s.thresholds.find? metric).or (m.config.thresholds.find? metric)
  ceilings : ∀ metric, layered.config.ceilings.find? metric =
    (s.ceilings.find? metric).or (m.config.ceilings.find? metric)
  /-- the list of a file is stronger than its preset -/
  collectors : layered.collectors =
    ((given? CollectorSet.preset o.collectors).or
      (s.collectors.or (given? CollectorSet.preset s.preset))).getD m.collectors

namespace Suite

variable {κ : Type} {s : Settings} {o : Options} {suite : Suite κ}

/-- A suite under both layers, with its methods in their order. -/
structure Layered (s : Settings) (o : Options) (suite layered : Suite κ) : Prop where
  name : layered.name = suite.name
  registry : layered.registry = suite.registry
  grace : layered.grace = suite.grace
  timeout : layered.timeout =
    ((given? Duration.parse o.suiteTimeout).or (given? Duration.parse s.suiteTimeout)).getD
      suite.timeout
  methods : List.Forall₂ (Method.Layered s o) suite.methods layered.methods

/-- **What both layers make of a suite.** -/
theorem overridden_eq_ok (hfile : ¬ s.SuiteRefused suite.methods) (hoptions : ¬ o.AnyRefused) :
    suite.overridden s o = (.ok (),
      { suite with
        timeout := (given? Duration.parse o.suiteTimeout).getD
          ((given? Duration.parse s.suiteTimeout).getD suite.timeout)
        methods := suite.methods.map fun m =>
          o.applyTo (given? Duration.parse o.timeout) (given? CollectorSet.preset o.collectors)
            (s.onMethod (given? Duration.parse s.timeout) s.selected? m) }) := by
  obtain ⟨hsuite, htimeout, hset⟩ :
      ¬ Refused Duration.parse o.suiteTimeout ∧ ¬ Refused Duration.parse o.timeout ∧
        ¬ Refused CollectorSet.preset o.collectors := by
    simpa [Options.AnyRefused] using hoptions
  simp [overridden, Settings.applyToSuite_eq_ok hfile, Settings.duration?_eq_mapM,
    mapM_of_not_refused hsuite, Options.resolve_eq_ok htimeout hset]

/-- Where the file is accepted and the options are not, the suite is left under the file, also with
the deadline of the options if that can be read. -/
theorem overridden_of_optionsRefused (hoptions : o.AnyRefused) :
    ∃ fault, ∀ suite : Suite κ, ¬ s.SuiteRefused suite.methods →
      suite.overridden s o = (.error fault,
        { suite with
          timeout := (given? Duration.parse o.suiteTimeout).getD
            ((given? Duration.parse s.suiteTimeout).getD suite.timeout)
          methods :=
            suite.methods.map (s.onMethod (given? Duration.parse s.timeout) s.selected?) }) := by
  by_cases hsuite : Refused Duration.parse o.suiteTimeout
  · obtain ⟨fault, hfault⟩ := mapM_of_refused hsuite
    refine ⟨.duration fault, ?_⟩
    intro suite hfile
    simp [overridden, Settings.applyToSuite_eq_ok hfile, Settings.duration?_eq_mapM, hfault,
      given?_of_refused hsuite]
  · obtain ⟨fault, hfault⟩ := Options.resolve_of_refused (hoptions.resolve_left hsuite)
    refine ⟨fault, ?_⟩
    intro suite hfile
    simp [overridden, Settings.applyToSuite_eq_ok hfile, Settings.duration?_eq_mapM,
      mapM_of_not_refused hsuite, hfault]

theorem overridden_of_fileRefused (hfile : s.SuiteRefused suite.methods) :
    ∃ fault, suite.overridden s o = (.error fault, (s.applyToSuite suite).2) := by
  obtain ⟨⟨fault, hfault⟩, -⟩ := Settings.applyToSuite_of_refused hfile
  refine ⟨fault, ?_⟩
  rw [overridden]
  rcases h : s.applyToSuite suite with ⟨result, left⟩
  rw [h] at hfault
  cases hfault
  rfl

/-- **Layers are refused exactly for a text that cannot be read**, where the deadline of methods in
the file counts only if there are methods, and its preset only if it has no list. -/
theorem overridden_eq_error_iff :
    (∃ fault, (suite.overridden s o).1 = .error fault) ↔
      s.SuiteRefused suite.methods ∨ o.AnyRefused := by
  constructor
  · rintro ⟨fault, hfault⟩
    by_contra hnot
    obtain ⟨hfile, hoptions⟩ := not_or.1 hnot
    simp [overridden_eq_ok hfile hoptions] at hfault
  · intro h
    by_cases hfile : s.SuiteRefused suite.methods
    · obtain ⟨fault, heq⟩ := overridden_of_fileRefused (o := o) hfile
      exact ⟨fault, congrArg Prod.fst heq⟩
    · obtain ⟨fault, hall⟩ := overridden_of_optionsRefused (κ := κ) (s := s) (h.resolve_left hfile)
      exact ⟨fault, congrArg Prod.fst (hall suite hfile)⟩

theorem overridden_layered (hfile : ¬ s.SuiteRefused suite.methods) (hoptions : ¬ o.AnyRefused) :
    Layered s o suite (suite.overridden s o).2 := by
  rw [overridden_eq_ok hfile hoptions]
  refine ⟨rfl, rfl, rfl, Option.getD_or.symm, ?_⟩
  refine List.forall₂_map_right_iff.2 (List.forall₂_same.2 ?_)
  intro m _
  refine ⟨rfl, rfl, rfl, Option.getD_or.symm, Option.getD_or.symm, Option.getD_or.symm,
    Option.getD_or.symm, Option.getD_or.symm, Named.find?_extend_entries _ _,
    Named.find?_extend_entries _ _, Option.getD_or.symm⟩

theorem suiteRefused_map {f : Method κ → Method κ} {methods : List (Method κ)} :
    s.SuiteRefused (methods.map f) ↔ s.SuiteRefused methods := by
  simp [Settings.SuiteRefused]

/-- **Layers that are applied twice leave what they leave when they are applied once**, and give the
same answer. -/
theorem overridden_overridden (suite : Suite κ) (s : Settings) (o : Options) :
    (suite.overridden s o).2.overridden s o = suite.overridden s o := by
  by_cases hfile : s.SuiteRefused suite.methods
  · obtain ⟨fault, heq⟩ := overridden_of_fileRefused (o := o) hfile
    have htwice := (Settings.applyToSuite_of_refused hfile).2
    have hagain : (s.applyToSuite suite).2.overridden s o =
        (.error fault, (s.applyToSuite suite).2) := by
      rw [overridden, htwice]
      rw [overridden] at heq
      exact heq
    rw [heq, hagain]
  · by_cases hoptions : o.AnyRefused
    · obtain ⟨fault, hall⟩ := overridden_of_optionsRefused (κ := κ) (s := s) hoptions
      rw [hall suite hfile, hall _ (by rwa [suiteRefused_map])]
      simp [getD_getD_getD, Settings.onMethod_onMethod]
    · rw [overridden_eq_ok hfile hoptions, overridden_eq_ok (by rwa [suiteRefused_map]) hoptions]
      simp [getD_getD_getD, Options.applyTo_onMethod_self]

/-- **Parameters have one order of layers.**  The layers are refused exactly when the file has a bad
deadline for the suite or, where there are methods, for these, or an unknown preset and no list, or
when the options have a bad deadline or an unknown preset.  Otherwise every method has each parameter
of the options, else of the file, else its own, and so has the suite its deadline.  Applying the layers
twice is the same as applying them once. -/
theorem overridden_layers (suite : Suite κ) (s : Settings) (o : Options) :
    ((∃ fault, (suite.overridden s o).1 = .error fault) ↔
      Refused Duration.parse s.suiteTimeout ∨
      (suite.methods ≠ [] ∧ Refused Duration.parse s.timeout) ∨
      (s.collectors = none ∧ ∃ name ∈ s.preset, name ∉ CollectorSet.presetNames) ∨
      Refused Duration.parse o.suiteTimeout ∨ Refused Duration.parse o.timeout ∨
      ∃ name ∈ o.collectors, name ∉ CollectorSet.presetNames) ∧
    ((suite.overridden s o).1 = .ok () → Layered s o suite (suite.overridden s o).2) ∧
    (suite.overridden s o).2.overridden s o = suite.overridden s o := by
  refine ⟨?_, ?_, overridden_overridden suite s o⟩
  · rw [overridden_eq_error_iff, Settings.SuiteRefused, Settings.PresetRefused, Options.AnyRefused]
    simp only [CollectorSet.refused_preset_iff, or_assoc]
  · intro hok
    have hnot : ¬ (s.SuiteRefused suite.methods ∨ o.AnyRefused) := by
      rw [← overridden_eq_error_iff, hok]
      simp
    obtain ⟨hfile, hoptions⟩ := not_or.1 hnot
    exact overridden_layered hfile hoptions

def single : Suite Unit where
  name := "bench"
  methods := [{ name := "sort", config := {}, factory := .error .notText }]
  registry := {}

/-- A file with a list of collectors that hides a preset which does not exist. -/
def listed : Settings := { warmup := some 3, iterations := some 5, preset := some "unknown",
                           collectors := some ["probe"] }

/-- A file whose deadline of methods is no text at all. -/
def untimed : Settings := { timeout := some "" }

/-- The options hide the warm-up and the list of a file but not its iterations, and a bad deadline of
methods is refused where there are methods. -/
theorem overridden_layers_listed :
    Layered listed { warmup := some 2, collectors := some "none" } single
        (single.overridden listed { warmup := some 2, collectors := some "none" }).2 ∧
      (∃ fault, (single.overridden untimed {}).1 = .error fault) ∧
      ¬ ∃ fault, ({ single with methods := [] }.overridden untimed {}).1 = .error fault := by
  have hrefused : Refused Duration.parse untimed.timeout := ⟨"", rfl, .empty, rfl⟩
  refine ⟨?_, ?_, ?_⟩
  · exact (overridden_layers single listed { warmup := some 2, collectors := some "none" }).2.1 rfl
  · exact (overridden_layers single untimed {}).1.2 (.inr (.inl ⟨by simp [single], hrefused⟩))
  · rw [(overridden_layers { single with methods := [] } untimed {}).1]
    simp [Refused, untimed]

end Suite

end Gauge
