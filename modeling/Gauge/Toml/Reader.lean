import Gauge.Toml.Number

/-!
# Reading TOML

A text is read line by line into statements, and the statements into a table.

## Main definitions

* `Toml.valueFrom` — the value at the beginning of a text.
* `Toml.key?` — a key, which may be dotted.
* `Toml.statements?` — the statements of a text.
* `Toml.parse?` — the table of a text.
-/

namespace Gauge.Toml

/-- How deep lists and tables may be nested in a value. -/
def deepest : Nat := 79

/-- How many names a dotted key may have. -/
def longestKey : Nat := 79

/-! ## Keys -/

/-- A character of a name without quotes. -/
def isBare (c : Char) : Bool := c.isAlphanum || c = '-' || c = '_'

/-- One name of a key. -/
def name? (cs : List Char) : Option (String × List Char) :=
  match cs with
  | [] => none
  | c :: rest =>
    if c = Quote.double.mark then lineText? .double rest
    else if c = Quote.apostrophe.mark then lineText? .apostrophe rest
    else if isBare c then some (String.ofList (cs.takeWhile isBare), cs.dropWhile isBare)
    else none

/-- The names of a key with points between them. -/
def namesFrom : Nat → List Char → Option (List String × List Char)
  | 0, _ => none
  | fuel + 1, cs => do
    let (name, rest) ← name? (skip cs)
    match skip rest with
    | '.' :: rest =>
      let (names, rest) ← namesFrom fuel rest
      return (name :: names, rest)
    | rest => return ([name], rest)

/-- A key: the names on its way, and its last name. -/
def key? (cs : List Char) : Option ((List String × String) × List Char) := do
  let (names, rest) ← namesFrom longestKey cs
  return ((names.dropLast, ← names.getLast?), rest)

/-! ## Values -/

/-- Comments run to the end of their line. -/
def skipComment (cs : List Char) : List Char :=
  match cs with
  | '#' :: rest => rest.dropWhile isPlain
  | cs => cs

/-- The rest of a line behind a statement: blanks, a comment and the end of the line. -/
def lineEnd? (cs : List Char) : Option (List Char) :=
  match skipComment (skip cs) with
  | [] => some []
  | rest => newline? rest

/-- Blanks, comments and ends of lines between the items of a list. -/
def skipBetween : Nat → List Char → Option (List Char)
  | 0, _ => none
  | fuel + 1, cs =>
    match skipLines cs with
    | '#' :: rest => do skipBetween fuel (← lineEnd? ('#' :: rest))
    | rest => some rest

/-- A value that holds no others. -/
def scalar? (cs : List Char) : Option (Toml × List Char) :=
  match cs with
  | [] => none
  | 't' :: rest => (word? "rue" rest).map (bool true, ·)
  | 'f' :: rest => (word? "alse" rest).map (bool false, ·)
  | c :: _ =>
    if c = Quote.double.mark then (quotedText? .double cs).map fun (s, rest) => (text s, rest)
    else if c = Quote.apostrophe.mark then
      (quotedText? .apostrophe cs).map fun (s, rest) => (text s, rest)
    else if looksLikeMoment cs then moment? cs
    else number? cs

/-- Items up to the closing bracket, a comma between two of them and possibly behind the last.  Each
takes at least one character. -/
def itemsFrom (value? : List Char → Option (Toml × List Char)) :
    Nat → List Char → Option (List Toml × List Char)
  | 0, _ => none
  | fuel + 1, cs => do
    match ← skipBetween (cs.length + 1) cs with
    | ']' :: rest => return ([], rest)
    | rest =>
      let (v, rest) ← value? rest
      match ← skipBetween (rest.length + 1) rest with
      | ',' :: rest =>
        let (vs, rest) ← itemsFrom value? fuel rest
        return (v :: vs, rest)
      | ']' :: rest => return ([v], rest)
      | _ => none

/-- Assignments up to the closing bracket, a comma between two of them.  Each takes at least one
character. -/
def assignmentsFrom (value? : List Char → Option (Toml × List Char)) :
    Nat → List Char → Option (List (List String × String × Toml) × List Char)
  | 0, _ => none
  | fuel + 1, cs => do
    let ((way, name), rest) ← key? cs
    match rest with
    | '=' :: rest =>
      let (v, rest) ← value? (skip rest)
      match skip rest with
      | ',' :: rest =>
        let (more, rest) ← assignmentsFrom value? fuel rest
        return ((way, name, v) :: more, rest)
      | '\x7d' :: rest => return ([(way, name, v)], rest)
      | _ => none
    | _ => none

/-- The value at the beginning of a text, nested no deeper than given. -/
def valueFrom : Nat → List Char → Option (Toml × List Char)
  | 0, cs => scalar? cs
  | depth + 1, cs =>
    match cs with
    | '[' :: rest => do
      let (items, rest) ← itemsFrom (valueFrom depth) (rest.length + 1) rest
      return (array .value items, rest)
    | '\x7b' :: rest =>
      match skip rest with
      | '\x7d' :: rest => some (table .value [], rest)
      | rest => do
        let (assignments, rest) ← assignmentsFrom (valueFrom depth) (rest.length + 1) rest
        return (table .value (← ofAssignments? assignments), rest)
    | cs => scalar? cs

/-! ## Statements -/

/-- A statement and the rest of its line. -/
def statement? (cs : List Char) : Option (Statement × List Char) :=
  match cs with
  | '[' :: '[' :: rest => do
    let ((way, name), rest) ← key? rest
    match rest with
    | ']' :: ']' :: rest => return (.openItem way name, ← lineEnd? rest)
    | _ => none
  | '[' :: rest => do
    let ((way, name), rest) ← key? rest
    match rest with
    | ']' :: rest => return (.openTable way name, ← lineEnd? rest)
    | _ => none
  | cs => do
    let ((way, name), rest) ← key? cs
    match rest with
    | '=' :: rest =>
      let (v, rest) ← valueFrom deepest (skip rest)
      return (.assign way name v, ← lineEnd? rest)
    | _ => none

/-- The statements of the lines that are left.  Every step takes at least one character. -/
def statementsFrom : Nat → List Char → Option (List Statement)
  | 0, _ => none
  | fuel + 1, cs => do
    match ← skipBetween (cs.length + 1) cs with
    | [] => return []
    | rest =>
      let (s, rest) ← statement? rest
      return s :: (← statementsFrom fuel rest)

/-- The statements of a text, which may begin with a byte order mark. -/
def statements? (text : String) : Option (List Statement) :=
  let cs := match text.toList with
    | '\uFEFF' :: rest => rest
    | cs => cs
  statementsFrom (cs.length + 1) cs

def parse? (text : String) : Option Entries := (statements? text).bind ofStatements?

end Gauge.Toml
