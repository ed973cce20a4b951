import Gauge.Program

/-!
# The command line

A demonstration suite under the whole command line.  Its methods run in a simulated world, whose
clock goes on by a tick now and then and by the sleeping that is asked for.  What the program reads
and writes are real files.

## Main definitions

* `Demo.suite` — the methods of the demonstration.
* `Demo.gather` — the files that the program may need.
* `main` — the program.
-/

namespace Gauge.Demo

/-- A workload that does one thing over and over. -/
def repeating (a : Action) : Workload := { body := { script := fun _ => a } }

/-- Stops as soon as the time of an iteration settles, at the earliest after 20 iterations. -/
def converging : Method Instrument where
  name := "allocate_1k"
  config :=
    { warmup := 5, executions := 500, minEarlyStop := 20, thresholds := .ofList [(elapsedTime, 0.05)] }
  factory := .ok (repeating (.allocate 1024))

/-- Has so many iterations that their samples are spooled. -/
def longRun : Method Instrument where
  name := "allocate_64k"
  config :=
    { warmup := 10, executions := 2000, ceilings := .ofList [(allocatedBytes, 1048576)] }
  factory := .ok (repeating (.allocate 65536))
  collectors := .extended

/-- Runs past its deadline; the iterations before it are kept. -/
def untilDeadline : Method Instrument where
  name := "sleep_until_deadline"
  config := { warmup := 0, executions := 1000, timeout := .ofMillis 200 }
  factory := .ok (repeating (.sleep 1000000))

def suite : Suite Instrument where
  name := "demo"
  methods := [converging, longRun, untilDeadline]
  registry := .builtins
  timeout := .ofSecs 60

/-! ## Files -/

def pathOf (place : Path) : String := "/" ++ "/".intercalate place

/-- The text at a place, if there is a file that can be read. -/
def text? (place : Path) : IO (Option String) := do
  try
    return some (← IO.FS.readFile (pathOf place))
  catch _ => return none

/-- Whether there is a directory at a place. -/
def isFolder (place : Path) : IO Bool := do
  try
    (← IO.FS.realPath (pathOf place)).isDir
  catch _ => return false

/-- Adds what there is on the way to a place. -/
def lookUp (fs : Files) (place : Path) : IO Files := do
  let mut fs := fs
  for n in List.range (place.length + 1) do
    if ← isFolder (place.take n) then
      fs := { fs with directories := place.take n :: fs.directories }
  match ← text? place with
  | some text => return { fs with texts := (place, text) :: fs.texts }
  | none => return fs

/-- The place that a path spells. -/
def spelled (directory : Path) (path : String) : Path :=
  let names := (Files.names path).filter fun name => name ≠ "" ∧ name ≠ "."
  if path.startsWith "/" then names else directory ++ names

/-- The files that the program may need. -/
def gather (directory : Path) (args : List String) : IO Files := do
  let mut fs : Files := { directories := [directory] }
  for n in List.range (directory.length + 1) do
    fs ← lookUp fs (directory.take n ++ [Settings.fileName])
  if let .ok o := Options.parse args then
    for path in o.config.toList ++ o.output.toList do
      fs ← lookUp fs (spelled directory path)
  return fs

/-- Runs the demonstration suite. -/
def start (args : List String) : IO UInt32 := do
  let directory := (Files.names (← IO.currentDir).toString).filter (· ≠ "")
  let before ← gather directory args
  let outcome := Program.run args suite before directory
  IO.print outcome.output
  for message in outcome.messages do
    IO.eprintln message
  for (place, text) in outcome.files.texts do
    if before.text? place ≠ some text then
      IO.FS.writeFile (pathOf place) text
  return UInt32.ofNat outcome.exitCode

end Gauge.Demo

def main (args : List String) : IO UInt32 := Gauge.Demo.start args
