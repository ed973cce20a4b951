import Gauge.Options.Basic
import Gauge.Text.Similarity

/-!
# Reading arguments

Arguments are read from left to right.  An option that stands alone takes the next argument as its
value, unless that looks like an option too; its value is checked only when the next option or name
follows, or at the end.  The name of a command ends the options, and two dashes end them as well.

## Main definitions

* `Reading` — the arguments read so far.
* `Reading.settle` — checks the value that was read last.
* `Options.parse` — the options of a list of arguments.
-/

namespace Gauge

/-- The arguments read so far. -/
structure Reading where
  options : Options := {}
  /-- the pattern, once it is given -/
  filter : Option String := none
  /-- the last option and its value, if it has one already -/
  pending : Option (Field × Option String) := none

/-- A kind of argument, by the dashes in front of it. -/
inductive Argument where
  /-- two dashes, a name and possibly a value behind an equals sign -/
  | long (name : String) (value : Option String)
  /-- a dash and letters -/
  | letters (cs : List Char)
  /-- two dashes alone -/
  | separator
  | plain

namespace Argument

/-- Splits a text at its first equals sign. -/
def splitValue (cs : List Char) : String × Option String :=
  let name := String.ofList (cs.takeWhile (· ≠ '='))
  match cs.dropWhile (· ≠ '=') with
  | [] => (name, none)
  | _ :: value => (name, some (String.ofList value))

/-- The kind of an argument.  A dash alone is a plain argument. -/
def ofText (arg : String) : Argument :=
  match arg.toList with
  | ['-', '-'] => separator
  | '-' :: '-' :: rest =>
    let (name, value) := splitValue rest
    long name value
  | ['-'] => plain
  | '-' :: rest => letters rest
  | _ => plain

end Argument

/-- The commands by their names. -/
def Command.all : List (String × Command) := [("list", .list), ("run", .run), ("init", .init)]

/-- The name that asks for help in place of a command. -/
def helpName : String := "help"

/-- Whether a name stands for a command or for help. -/
def isCommandName (name : String) : Bool := name = helpName || (Command.all.lookup name).isSome

namespace Reading

def isWaiting (r : Reading) : Bool :=
  match r.pending with
  | some (_, none) => true
  | _ => false

/-- Checks the value that was read last. -/
def settle (r : Reading) : Except OptionFault Reading :=
  match r.pending with
  | none => .ok r
  | some (f, none) => .error (.noValue f.name)
  | some (f, some value) => (r.options.set f value).map fun o => { r with options := o, pending := none }

def withValue (r : Reading) (f : Field) (value : String) : Except OptionFault Reading := do
  let r ← r.settle
  return { r with options := ← r.options.set f value }

/-- An option whose value is the next argument. -/
def waitFor (r : Reading) (f : Field) : Except OptionFault Reading := do
  let r ← r.settle
  return { r with pending := some (f, none) }

/-- An option for all messages. -/
def verbose (r : Reading) : Except OptionFault Reading := do
  let r ← r.settle
  return { r with options := ← r.options.setVerbose }

/-- A wish that ends the reading, if nothing is wrong so far. -/
def endWith (r : Reading) (wish : OptionFault) : Except OptionFault Reading :=
  r.settle.bind fun _ => .error wish

def long (r : Reading) (name : String) (value : Option String) : Except OptionFault Reading :=
  match Field.ofName? name, value with
  | some f, some value => r.withValue f value
  | some f, none => r.waitFor f
  | none, value =>
    if name ∉ ["verbose", "help", "version"] then .error (.unknown name)
    else if value.isSome then .error (.unneededValue name)
    else if name = "verbose" then r.verbose
    else r.endWith (if name = "help" then .helpWanted else .versionWanted)

/-- Options by their letters.  What follows the letter of an option with a value is that value. -/
def letters (r : Reading) : List Char → Except OptionFault Reading
  | [] => .ok r
  | c :: rest =>
    match Field.ofLetter? c, rest with
    | some f, [] => r.waitFor f
    | some f, '=' :: value => r.withValue f (String.ofList value)
    | some f, value => r.withValue f (String.ofList value)
    | none, rest =>
      if c = 'v' then r.verbose.bind fun r => r.letters rest
      else if c = 'h' then r.endWith .helpWanted
      else if c = 'V' then r.endWith .versionWanted
      else .error (.unknown (String.ofList ['-', c]))

/-- An argument that there is no place for.  One that looks like a command is taken for a command
with a mistake in it. -/
def surplus (arg : String) : OptionFault :=
  if (helpName :: Command.all.map (·.1)).any fun name => 0.7 < Text.similarity arg name then
    .unknownCommand arg
  else .unknown arg

/-- A plain argument: the pattern, which is given once. -/
def plain (r : Reading) (arg : String) : Except OptionFault Reading :=
  if r.filter.isSome then .error (surplus arg)
  else r.settle.map ({ · with filter := some arg })

/-- The arguments behind two dashes, all of them plain. -/
def plains (r : Reading) : List String → Except OptionFault Reading
  | [] => .ok r
  | arg :: args =>
    if r.filter.isSome && isCommandName arg then .error (.unknown arg)
    else (r.plain arg).bind fun r => r.plains args

/-- What follows the name of a command: nothing, or a wish for help. -/
def checkCommandArguments : List String → Except OptionFault Unit
  | [] => .ok ()
  | arg :: args =>
    match Argument.ofText arg with
    | .separator => if args.isEmpty then .ok () else .error (.unknown arg)
    | .long "help" none => .error .helpWanted
    | .long "help" (some _) => .error (.unneededValue "help")
    | .letters ('h' :: _) => .error .helpWanted
    | _ => .error (.unknown arg)

/-- What follows a wish for help: nothing, or the name of one command. -/
def helpFault : List String → OptionFault
  | [] => .helpWanted
  | name :: rest => if isCommandName name && rest.isEmpty then .helpWanted else .unknownCommand name

/-- The options at the end of the arguments. -/
def finish (r : Reading) (command : Option Command) : Except OptionFault Options := do
  let r ← r.settle
  let o := r.options
  return { o with command := command, filter := r.filter.getD o.filter }

def readAll (r : Reading) : List String → Except OptionFault Options
  | [] => r.finish none
  | arg :: args =>
    if !r.isWaiting && arg = helpName then .error (helpFault args)
    else
      match if r.isWaiting then none else Command.all.lookup arg with
      | some command => (checkCommandArguments args).bind fun _ => r.finish (some command)
      | none =>
        match Argument.ofText arg with
        | .separator => (r.plains args).bind (·.finish none)
        | .long name value => (r.long name value).bind fun r => r.readAll args
        | .letters cs => (r.letters cs).bind fun r => r.readAll args
        | .plain =>
          match r.pending with
          | some (f, none) => { r with pending := some (f, some arg) }.readAll args
          | _ => (r.plain arg).bind fun r => r.readAll args

end Reading

def Options.parse (args : List String) : Except OptionFault Options := ({} : Reading).readAll args

end Gauge
