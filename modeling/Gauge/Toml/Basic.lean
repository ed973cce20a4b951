import Gauge.Decimal.Reading

/-!
# TOML

The values of a settings file.  A file is a sequence of statements: headers that open a table, and
assignments to a key of the open table.  Every table and list remembers how it came to be, since that
decides what a later statement may still add to it.

## Main definitions

* `Toml` — a value, with `Toml.Origin` for how a table or list came to be.
* `Toml.atPath?` — changes the table at the end of a path, making the tables on its way.
* `Toml.Statement` — a header or an assignment.
* `Toml.ofStatements?` — the table that a sequence of statements describes, unless one of them
  contradicts an earlier one.
-/

namespace Gauge

namespace Toml

/-- How a table or list came to be. -/
inductive Origin where
  /-- opened by a header of its own; also the table of the whole file, and a list of such tables -/
  | header
  /-- on the way to the table of a header -/
  | onTheWay
  /-- on the way to an assignment with a dotted key -/
  | dotted
  /-- written as a value, and closed since then -/
  | value
  deriving DecidableEq

end Toml

/-- A value of a settings file. -/
inductive Toml where
  | text (s : String)
  | int (n : Int64)
  | float (x : Float)
  | bool (b : Bool)
  /-- a date, a time or both -/
  | moment
  | array (origin : Toml.Origin) (items : List Toml)
  | table (origin : Toml.Origin) (entries : List (String × Toml))

namespace Toml

abbrev Entries := List (String × Toml)

/-- Replaces the first entry of a name, or adds one at the end. -/
def put (name : String) (v : Toml) : Entries → Entries
  | [] => [(name, v)]
  | e :: es => if e.1 = name then (name, v) :: es else e :: put name v es

/-- Enters a name that has no value yet. -/
def addNew? (name : String) (v : Toml) (entries : Entries) : Option Entries :=
  if (entries.lookup name).isSome then none else some (put name v entries)

/-- A change of a table, which may see how the table came to be, and may refuse. -/
abbrev Change := Origin → Entries → Option Entries

/-- Changes the value that a path has reached: a table, or the latest table of a list of them.  A
dotted key does not enter the table of a header. -/
def enter? (way : Origin) (change : Change) : Toml → Option Toml
  | table origin entries =>
    if origin = .value ∨ (way = .dotted ∧ origin = .header) then none
    else (change origin entries).map (table origin ·)
  | array .header items =>
    match items.getLast? with
    | some (table origin entries) =>
      (change origin entries).map fun es => array .header (items.dropLast ++ [table origin es])
    | _ => none
  | _ => none

/-- Changes the table at the end of a path.  Tables that are missing on the way are made. -/
def atPath? (way : Origin) (change : Change) : List String → Change
  | [] => change
  | name :: path => fun _ entries =>
    let reached := (entries.lookup name).getD (table way [])
    (enter? way (atPath? way change path) reached).map (put name · entries)

/-- Assigns to a dotted key inside the table that is open.  Only tables that such keys made can be
extended by another. -/
def assign? (path : List String) (name : String) (v : Toml) : Change :=
  atPath? .dotted (fun origin entries =>
    if decide (origin = .dotted) = !path.isEmpty then addNew? name v entries else none) path

/-- Opens a table under a new name, or one that so far was only on the way to others. -/
def openTable? (name : String) : Change := fun _ entries =>
  match entries.lookup name with
  | none => some (put name (table .header []) entries)
  | some (table .onTheWay es) => some (put name (table .header es) entries)
  | some _ => none

/-- Opens another table at the end of a list of tables. -/
def openItem? (name : String) : Change := fun _ entries =>
  match entries.lookup name with
  | none => some (put name (array .header [table .header []]) entries)
  | some (array .header items) => some (put name (array .header (items ++ [table .header []])) entries)
  | some _ => none

/-! ## Statements -/

/-- A header or an assignment; the names of a path in front of the last one are its way. -/
inductive Statement where
  | openTable (way : List String) (name : String)
  | openItem (way : List String) (name : String)
  | assign (way : List String) (name : String) (v : Toml)

/-- A file that was read up to some statement. -/
structure Draft where
  entries : Entries := []
  /-- the path of the table that is open -/
  current : List String := []

/-- The draft after one more statement. -/
def Draft.step? (d : Draft) : Statement → Option Draft
  | .openTable way name => do
    let entries ← atPath? .onTheWay (openTable? name) way .header d.entries
    return { entries := entries, current := way ++ [name] }
  | .openItem way name => do
    let entries ← atPath? .onTheWay (openItem? name) way .header d.entries
    return { entries := entries, current := way ++ [name] }
  | .assign way name v => do
    let entries ← atPath? .onTheWay (assign? way name v) d.current .header d.entries
    return { d with entries := entries }

/-- The entries of the file that a sequence of statements describes. -/
def ofStatements? (statements : List Statement) : Option Entries :=
  (statements.foldlM Draft.step? {}).map (·.entries)

/-- The entries of a table that is written as a value. -/
def ofAssignments? (assignments : List (List String × String × Toml)) : Option Entries :=
  assignments.foldlM (fun entries (way, name, v) => assign? way name v .value entries) []

end Toml

end Gauge
