import Gauge.Files
import Gauge.Options.Reader
import Gauge.Overrides
import Gauge.Pattern.Reader
import Gauge.Report.Export

/-!
# The program

What the program does with its arguments: it lists the methods of a suite, runs them and reports, or
writes a new settings file.  All of it is a function of the arguments, the suite and the files.

## Main definitions

* `Outcome` — what a run of the program leaves behind.
* `Mishap` — why it breaks off.
* `Suite.filtered` — the methods whose names match a pattern.
* `Files.findSettings` — the settings that hold in a directory.
* `Program.run` — the whole program.
-/

namespace Gauge

/-- What a run of the program leaves behind. -/
structure Outcome where
  exitCode : Nat := 0
  /-- the text for the standard output -/
  output : String := ""
  /-- the lines for the standard error output -/
  messages : List String := []
  files : Files

/-- Why the program breaks off. -/
inductive Mishap where
  | badFilter (filter : String) (fault : PatternFault)
  | setting (fault : SettingFault)
  /-- a settings file that cannot be read -/
  | unreadable (path : String) (fault : FileFault)
  /-- a settings file with bad contents -/
  | badSettings
  /-- a report that cannot be written -/
  | unwritable (fault : FileFault)
  /-- a new settings file where there is one -/
  | alreadyThere
  | interrupted

/-- The message for a program that breaks off, as far as it stands on one line. -/
def Mishap.message : Mishap → String
  | badFilter filter fault => s!"Invalid filter '{filter}': {fault.message}"
  | setting fault => fault.message
  | unreadable path fault => s!"Failed to read {path}: {fault.message}"
  | badSettings => "TOML parse error"
  | unwritable fault => fault.message
  | alreadyThere => s!"{Settings.fileName} already exists"
  | interrupted => "interrupted"

namespace Suite

variable {κ : Type}

/-- The suite of the methods whose names match a pattern. -/
def filtered (s : Suite κ) (filter : String) : Except Mishap (Suite κ) :=
  match Pattern.parse filter with
  | .error f => .error (.badFilter filter f)
  | .ok p => .ok { s with methods := s.methods.filter fun m => p.isMatch m.name }

/-- The line of a method in the list of a suite. -/
def methodLine (m : Method κ) : String :=
  let c := m.config
  s!"├── {m.name} (iterations: {c.executions}, warmup: {c.warmup}, " ++
    s!"repetitions: {c.repetitions}, collectors: [" ++ ", ".intercalate m.collectors ++ "])\n"

def listing (s : Suite κ) : String :=
  s!"repmeter Plan: {s.name}\n" ++ String.join (s.methods.map methodLine) ++
    s!"{s.methods.length} methods found.\n"

end Suite

namespace Files

/-- The settings of a file. -/
def loadSettings (fs : Files) (directory : Path) (path : String) : Except Mishap Settings :=
  match fs.read directory path with
  | .error f => .error (.unreadable path f)
  | .ok text =>
    match Settings.parse? text with
    | some s => .ok s
    | none => .error .badSettings

/-- The settings that hold in a directory: those of the nearest settings file on the way up.  A file
that cannot be used ends the search. -/
def findSettings (fs : Files) (directory : List String) : Option Settings :=
  if fs.holds directory Settings.fileName then
    (fs.loadSettings directory Settings.fileName).toOption
  else if h : directory = [] then none
  else
    have : directory.dropLast.length < directory.length := by
      rw [List.length_dropLast]
      exact Nat.sub_lt (List.length_pos_iff.2 h) Nat.one_pos
    fs.findSettings directory.dropLast
  termination_by directory.length

end Files

namespace Program

def version : String := "repmeter 0.1.0\n"

def usage : String := "\n".intercalate
  [ "repmeter - repeated-measurement harness",
    "",
    "Usage: repmeter [OPTIONS] [FILTER] [COMMAND]",
    "",
    "Commands:",
    "  list  List the methods of the suite",
    "  run   Run the suite (default)",
    "  init  Write a default repmeter.toml to the current directory",
    "  help  Print this message or the help of the given subcommand(s)",
    "" ]

/-- The outcome of arguments that are not accepted, or ask for a text only. -/
def refused (fs : Files) : OptionFault → Outcome
  | .helpWanted => { output := usage, files := fs }
  | .versionWanted => { output := version, files := fs }
  | f => { exitCode := 2, messages := [s!"error: {f.message}"], files := fs }

/-- The outcome of a program that breaks off, behind earlier messages. -/
def brokenOff (fs : Files) (messages : List String) (m : Mishap) : Outcome where
  exitCode := 1
  messages := messages ++ [s!"Error: {m.message}"]
  files := fs

def writeTemplate (fs : Files) (directory : Path) : Outcome :=
  if fs.holds directory Settings.fileName then brokenOff fs [] .alreadyThere
  else
    match fs.write directory Settings.fileName Settings.template with
    | .error f => brokenOff fs [] (.unwritable f)
    | .ok fs => { output := s!"Wrote {Settings.fileName}\n", files := fs }

variable {κ : Type} [Device κ]

/-- Hands a report over: to a file, or to the standard output. -/
def deliver (fs : Files) (directory : Path) (o : Options) (format : OutputFormat)
    (messages : List String) (done : SuiteOutcome) : Outcome :=
  let text := done.report.render format
  let exitCode := if done.isSuccess then 0 else 1
  let judged := if done.isSuccess then messages
    else messages ++ [s!"{done.failedCount} method(s) did not pass"]
  match o.output with
  | none => { exitCode := exitCode, output := text, messages := judged, files := fs }
  | some path =>
    match fs.write directory path text with
    | .error f => brokenOff fs messages (.unwritable f)
    | .ok fs =>
      { exitCode := exitCode, output := s!"Report written to: {path}\n", messages := judged
        files := fs }

/-- Runs the methods of a suite that match the filter, under the settings and the options. -/
def runSuite (fs : Files) (directory : Path) (o : Options) (s : Settings) (suite : Suite κ) :
    Outcome :=
  match suite.filtered o.filter with
  | .error m => brokenOff fs [] m
  | .ok suite =>
    match suite.overridden s o with
    | (.error f, _) => brokenOff fs [] (.setting f)
    | (.ok (), suite) =>
      if suite.methods.isEmpty then { output := "No methods found.\n", files := fs }
      else
        let format := (OutputFormat.parse (o.format.getD s.format)).toOption.getD .human
        let messages := [s!"Running {suite.methods.length} methods..."]
        match suite.execute {} with
        | .ok done _ => deliver fs directory o format messages done
        | .error _ _ => brokenOff fs messages .interrupted

/-- What the program does for accepted options. -/
def perform (fs : Files) (directory : Path) (o : Options) (suite : Suite κ) : Outcome :=
  match o.command with
  | some .list =>
    match suite.filtered o.filter with
    | .error m => brokenOff fs [] m
    | .ok suite => { output := suite.listing, files := fs }
  | some .init => writeTemplate fs directory
  | _ =>
    match o.config with
    | none => runSuite fs directory o ((fs.findSettings directory).getD {}) suite
    | some path =>
      match fs.loadSettings directory path with
      | .error m => brokenOff fs [] m
      | .ok s => runSuite fs directory o s suite

/-- The whole program. -/
def run (args : List String) (suite : Suite κ) (fs : Files) (directory : Path) : Outcome :=
  match Options.parse args with
  | .error f => refused fs f
  | .ok o => perform fs directory o suite

end Program

end Gauge
