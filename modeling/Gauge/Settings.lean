import Gauge.Suite
import Gauge.Toml.Reader

/-!
# Settings files

A settings file overrides the configurations that methods declare.  What it leaves out stays as it
was declared.

## Main definitions

* `Settings` — what a file says.
* `Settings.parse?` — the settings of a text.
* `Settings.collectorSet` — the set of collectors that a file selects.
* `Settings.applyTo`, `Settings.applyToSuite` — a configuration or a suite under the settings, with
  everything that was changed before a fault.
* `Settings.template` — the text of a new settings file.
-/

namespace Gauge

/-- What a settings file says. -/
structure Settings where
  warmup : Option Nat := none
  iterations : Option Nat := none
  repetitions : Option Nat := none
  minEarlyStop : Option Nat := none
  /-- the deadline of every method -/
  timeout : Option String := none
  suiteTimeout : Option String := none
  /-- the name of a set of collectors -/
  preset : Option String := none
  /-- the identifiers of collectors, stronger than the name of a set -/
  collectors : Option (List String) := none
  thresholds : Named Float := ∅
  ceilings : Named Int64 := ∅
  /-- the format of reports -/
  format : String := "human"

/-- Why settings cannot be applied. -/
inductive SettingFault where
  | duration (fault : DurationFault)
  | collectors (fault : RegistryFault)

def SettingFault.message : SettingFault → String
  | duration f => f.message
  | collectors f => f.message

namespace Toml

/-- A count. -/
def nat? : Toml → Option Nat
  | int n => if 0 ≤ n then some n.toNatClampNeg else none
  | _ => none

/-- A whole number. -/
def value? : Toml → Option Int64
  | int n => some n
  | _ => none

def real? : Toml → Option Float
  | int n => some (Float.ofInt n.toInt)
  | float x => some x
  | _ => none

def text? : Toml → Option String
  | text s => some s
  | _ => none

def texts? : Toml → Option (List String)
  | array _ items => items.mapM text?
  | _ => none

/-- A table of values of one kind. -/
def table? {α : Type} (f : Toml → Option α) : Toml → Option (Named α)
  | table _ entries => (entries.mapM fun (e : String × Toml) => (f e.2).map (e.1, ·)).map Named.ofList
  | _ => none

/-- The members of a section: by name in a table, by their place in a list.  A moment has none of
them. -/
def members? (names : List String) : Toml → Option (String → Option Toml)
  | table _ entries => some fun name => entries.lookup name
  | array _ items => some fun name => (names.zip items).lookup name
  | moment => some fun _ => none
  | _ => none

/-- Reads a member, unless it is left out. -/
def optional {α : Type} (f : Toml → Option α) : Option Toml → Option (Option α)
  | none => some none
  | some v => (f v).map some

end Toml

namespace Settings

/-- A section of a file, empty if it is left out. -/
def section? (entries : Toml.Entries) (name : String) (members : List String) :
    Option (String → Option Toml) :=
  ((entries.lookup name).getD (.table .value [])).members? members

/-- The settings of a table.  Unknown entries are ignored. -/
def ofEntries? (entries : Toml.Entries) : Option Settings := do
  let run ← section? entries "run"
    ["warmup", "iterations", "repetitions", "min_early_stop", "timeout", "suite_timeout"]
  let collectors ← section? entries "collectors" ["preset", "list"]
  let output ← section? entries "output" ["format"]
  return { warmup := ← Toml.optional Toml.nat? (run "warmup")
           iterations := ← Toml.optional Toml.nat? (run "iterations")
           repetitions := ← Toml.optional Toml.nat? (run "repetitions")
           minEarlyStop := ← Toml.optional Toml.nat? (run "min_early_stop")
           timeout := ← Toml.optional Toml.text? (run "timeout")
           suiteTimeout := ← Toml.optional Toml.text? (run "suite_timeout")
           preset := ← Toml.optional Toml.text? (collectors "preset")
           collectors := ← Toml.optional Toml.texts? (collectors "list")
           thresholds :=
             (← Toml.optional (Toml.table? Toml.real?) (entries.lookup "thresholds")).getD ∅
           ceilings :=
             (← Toml.optional (Toml.table? Toml.value?) (entries.lookup "assertions")).getD ∅
           format := (← Toml.optional Toml.text? (output "format")).getD "human" }

def parse? (text : String) : Option Settings := (Toml.parse? text).bind ofEntries?

/-! ## Applying settings -/

/-- The set of collectors that a file selects, if it selects one. -/
def collectorSet (s : Settings) : Except RegistryFault (Option CollectorSet) :=
  match s.collectors, s.preset with
  | some ids, _ => .ok (some ids)
  | none, some name => (CollectorSet.preset name).map some
  | none, none => .ok none

/-- The span of a text, if there is one. -/
def duration? : Option String → Except DurationFault (Option Duration)
  | none => .ok none
  | some text => (Duration.parse text).map some

/-- A configuration under the settings.  A bad deadline is found after the counts are set, and before
thresholds and ceilings. -/
def applyTo (s : Settings) (c : Configuration) : Except DurationFault Unit × Configuration :=
  let counted :=
    { c with
      warmup := s.warmup.getD c.warmup
      executions := s.iterations.getD c.executions
      repetitions := s.repetitions.getD c.repetitions
      minEarlyStop := s.minEarlyStop.getD c.minEarlyStop }
  match duration? s.timeout with
  | .error f => (.error f, counted)
  | .ok timeout =>
    (.ok (),
      { counted with
        timeout := timeout.getD c.timeout
        thresholds := c.thresholds.extend s.thresholds.entries
        ceilings := c.ceilings.extend s.ceilings.entries })

/-- Methods under the settings; the first fault ends it. -/
def applyToMethods {κ : Type} (s : Settings) (set : Option CollectorSet) :
    List (Method κ) → Except DurationFault Unit × List (Method κ)
  | [] => (.ok (), [])
  | m :: ms =>
    match s.applyTo m.config with
    | (.error f, config) => (.error f, { m with config := config } :: ms)
    | (.ok (), config) =>
      let (result, ms) := s.applyToMethods set ms
      (result, { m with config := config, collectors := set.getD m.collectors } :: ms)

/-- A suite under the settings: its deadline, then the set of collectors, then its methods. -/
def applyToSuite {κ : Type} (s : Settings) (suite : Suite κ) :
    Except SettingFault Unit × Suite κ :=
  match duration? s.suiteTimeout with
  | .error f => (.error (.duration f), suite)
  | .ok timeout =>
    let suite := { suite with timeout := timeout.getD suite.timeout }
    match s.collectorSet with
    | .error f => (.error (.collectors f), suite)
    | .ok set =>
      let (result, methods) := s.applyToMethods set suite.methods
      (result.mapError .duration, { suite with methods := methods })

/-! ## Files -/

def fileName : String := "repmeter.toml"

/-- The text of a new settings file, which changes nothing. -/
def template : String := "\n".intercalate
  [ "# repmeter Configuration",
    "# Keys left commented out keep the values each method declares in code.",
    "",
    "[run]",
    "# Warmup iterations (not measured)",
    "# warmup = 1",
    "# Maximum measured iterations",
    "# iterations = 10",
    "# Workload invocations inside one measured iteration",
    "# repetitions = 1",
    "# First iteration at which the early-stop rule is evaluated",
    "# min_early_stop = 10",
    "# Deadline for a single method",
    "# timeout = \"100s\"",
    "# Deadline for the whole suite",
    "# suite_timeout = \"10m\"",
    "",
    "[collectors]",
    "# Preset: \"standard\", \"extended\", \"only-time\" or \"none\"",
    "# preset = \"standard\"",
    "# Explicit collector identifiers (overrides preset)",
    "# list = [\"repmeter.time\", \"repmeter.cpu\"]",
    "",
    "[thresholds]",
    "# Stop early once every listed metric's relative standard deviation is at or below the value",
    "# \"repmeter.time\" = 0.05",
    "",
    "[assertions]",
    "# Fail a method when the mean of a metric reaches the ceiling",
    "# \"repmeter.time\" = 1000000",
    "",
    "[output]",
    "# Default output format: human or json",
    "format = \"human\"",
    "" ]

end Settings

end Gauge
