/-!
# Command line options

## Main definitions

* `Options` — what a command line asks for.
* `Field` — the options that take a value, with their names.
* `Options.set` — gives an option its value, once.
* `OptionFault` — why arguments are not accepted.
-/

namespace Gauge

/-- What the program can be asked to do. -/
inductive Command where
  | list
  | run
  | init
  deriving DecidableEq

/-- What a command line asks for. -/
structure Options where
  command : Option Command := none
  /-- the pattern that the names of methods have to match -/
  filter : String := ".*"
  format : Option String := none
  /-- the file that the report goes to -/
  output : Option String := none
  /-- the settings file -/
  config : Option String := none
  warmup : Option Nat := none
  iterations : Option Nat := none
  repetitions : Option Nat := none
  minEarlyStop : Option Nat := none
  /-- the deadline of every method -/
  timeout : Option String := none
  suiteTimeout : Option String := none
  /-- the name of a set of collectors -/
  collectors : Option String := none
  verbose : Bool := false
  deriving DecidableEq

/-- Why arguments are not accepted, or not acted upon. -/
inductive OptionFault where
  | unknown (argument : String)
  | unknownCommand (name : String)
  /-- an option without its value, or with an empty path -/
  | noValue (name : String)
  | notANumber (name value : String)
  | repeated (name : String)
  /-- a value for an option that takes none -/
  | unneededValue (name : String)
  | helpWanted
  | versionWanted
  deriving DecidableEq

def OptionFault.message : OptionFault → String
  | unknown argument => s!"unexpected argument '{argument}' found"
  | unknownCommand name => s!"unrecognized command '{name}'"
  | noValue name => s!"a value is required for '{name}'"
  | notANumber name value => s!"invalid value '{value}' for '{name}'"
  | repeated name => s!"'{name}' cannot be used multiple times"
  | unneededValue name => s!"unexpected value for '{name}'"
  | helpWanted => "help wanted"
  | versionWanted => "version wanted"

/-- The options that take a value. -/
inductive Field where
  | format
  | output
  | config
  | warmup
  | iterations
  | repetitions
  | minEarlyStop
  | timeout
  | suiteTimeout
  | collectors
  deriving DecidableEq

namespace Field

def all : List Field :=
  [format, output, config, warmup, iterations, repetitions, minEarlyStop, timeout, suiteTimeout,
    collectors]

/-- The name behind two dashes. -/
def name : Field → String
  | format => "format"
  | output => "output"
  | config => "config"
  | warmup => "warmup"
  | iterations => "iterations"
  | repetitions => "repetitions"
  | minEarlyStop => "min-early-stop"
  | timeout => "timeout"
  | suiteTimeout => "suite-timeout"
  | collectors => "collectors"

def ofName? (name : String) : Option Field := all.find? fun f => f.name = name

/-- The option of a letter behind one dash. -/
def ofLetter? (c : Char) : Option Field :=
  if c = 'o' then some output else if c = 'n' then some iterations else none

end Field

namespace Options

/-- A text for an option. -/
def textFor (_ : Field) (value : String) : Except OptionFault String := .ok value

/-- A path for an option. -/
def pathFor (f : Field) (value : String) : Except OptionFault String :=
  if value.isEmpty then .error (.noValue f.name) else .ok value

/-- A count for an option: digits of a 64-bit word, possibly behind a plus. -/
def countFor (f : Field) (value : String) : Except OptionFault Nat :=
  let digits := match value.toList with
    | '+' :: rest => rest
    | cs => cs
  let n := digits.foldl (fun n c => 10 * n + (c.toNat - '0'.toNat)) 0
  if digits.isEmpty || !digits.all Char.isDigit || UInt64.size ≤ n then
    .error (.notANumber f.name value)
  else .ok n

/-- Gives an option its value, unless it has one. -/
def once {α : Type} (f : Field) (old : Option α) (read : Field → String → Except OptionFault α)
    (value : String) : Except OptionFault (Option α) :=
  if old.isSome then .error (.repeated f.name) else (read f value).map some

/-- Gives an option its value.  A repeated option is found before a bad value. -/
def set (o : Options) (f : Field) (value : String) : Except OptionFault Options :=
  match f with
  | .format => (once f o.format textFor value).map ({ o with format := · })
  | .output => (once f o.output pathFor value).map ({ o with output := · })
  | .config => (once f o.config pathFor value).map ({ o with config := · })
  | .warmup => (once f o.warmup countFor value).map ({ o with warmup := · })
  | .iterations => (once f o.iterations countFor value).map ({ o with iterations := · })
  | .repetitions => (once f o.repetitions countFor value).map ({ o with repetitions := · })
  | .minEarlyStop => (once f o.minEarlyStop countFor value).map ({ o with minEarlyStop := · })
  | .timeout => (once f o.timeout textFor value).map ({ o with timeout := · })
  | .suiteTimeout => (once f o.suiteTimeout textFor value).map ({ o with suiteTimeout := · })
  | .collectors => (once f o.collectors textFor value).map ({ o with collectors := · })

/-- Asks for all messages, once. -/
def setVerbose (o : Options) : Except OptionFault Options :=
  if o.verbose then .error (.repeated "verbose") else .ok { o with verbose := true }

end Options

end Gauge
