import Gauge.Json.Number
import Gauge.Text.Hexadecimal

/-!
# JSON

Values with their members in the order they are written, and their text in two layouts: without any
blanks, and with one line per item.

## Main definitions

* `Json` — a value.
* `Json.compact`, `Json.pretty` — its text.
* `Json.parse?` — the value of a text.
-/

namespace Gauge

/-- A value. -/
inductive Json where
  | null
  | bool (b : Bool)
  | int (n : Int)
  | float (x : Float)
  /-- a number that was read and not yet converted -/
  | number (n : JsonNumber)
  | string (s : String)
  | array (items : List Json)
  | object (members : List (String × Json))

namespace Json

/-! ## Text -/

/-- A character inside quotes. -/
def escape (c : Char) : List Char :=
  if c = '"' then ['\\', '"']
  else if c = '\\' then ['\\', '\\']
  else if c = '\n' then ['\\', 'n']
  else if c = '\r' then ['\\', 'r']
  else if c = '\t' then ['\\', 't']
  else if c.toNat = 8 then ['\\', 'b']
  else if c.toNat = 12 then ['\\', 'f']
  else if c.toNat < 32 then
    ['\\', 'u', '0', '0', Text.hexDigit (c.toNat / 16), Text.hexDigit (c.toNat % 16)]
  else [c]

def quoted (s : String) : String := "\"" ++ String.ofList (s.toList.flatMap escape) ++ "\""

/-- The text of a number as it was read. -/
def numberText (n : JsonNumber) : String :=
  match n.isWhole, n.toFloat? with
  | false, some x => writeJsonFloat x
  | _, _ => (if n.negative then "-" else "") ++ String.ofList n.whole

mutual

/-- The text without blanks. -/
def compact : Json → String
  | null => "null"
  | bool b => if b then "true" else "false"
  | int n => toString n
  | float x => writeJsonFloat x
  | number n => numberText n
  | string s => quoted s
  | array items => "[" ++ ",".intercalate (compactItems items) ++ "]"
  | object members => "\x7b" ++ ",".intercalate (compactMembers members) ++ "\x7d"

def compactItems : List Json → List String
  | [] => []
  | v :: vs => v.compact :: compactItems vs

def compactMembers : List (String × Json) → List String
  | [] => []
  | (name, v) :: rest => (quoted name ++ ":" ++ v.compact) :: compactMembers rest

end

/-- A line break and the blanks of an indentation. -/
def newline (depth : Nat) : String := "\n" ++ String.ofList (List.replicate (2 * depth) ' ')

/-- Items between brackets, each on a line of its own. -/
def block (depth : Nat) (opening closing : String) (items : List String) : String :=
  if items.isEmpty then opening ++ closing
  else
    opening ++ newline (depth + 1) ++ ("," ++ newline (depth + 1)).intercalate items ++
      newline depth ++ closing

mutual

/-- The text with one line per item, at an indentation. -/
def prettyAt (depth : Nat) : Json → String
  | array items => block depth "[" "]" (prettyItems (depth + 1) items)
  | object members => block depth "\x7b" "\x7d" (prettyMembers (depth + 1) members)
  | null => "null"
  | bool b => if b then "true" else "false"
  | int n => toString n
  | float x => writeJsonFloat x
  | number n => numberText n
  | string s => quoted s

def prettyItems (depth : Nat) : List Json → List String
  | [] => []
  | v :: vs => prettyAt depth v :: prettyItems depth vs

def prettyMembers (depth : Nat) : List (String × Json) → List String
  | [] => []
  | (name, v) :: rest => (quoted name ++ ": " ++ prettyAt depth v) :: prettyMembers depth rest

end

/-- The text with one line per item. -/
def pretty (v : Json) : String := prettyAt 0 v

/-! ## Reading -/

/-- Blanks between the parts of a text. -/
def isBlank (c : Char) : Bool := c = ' ' || c = '\n' || c = '\t' || c = '\r'

/-- The text without leading blanks. -/
def skip (cs : List Char) : List Char := cs.dropWhile isBlank

/-- Four hexadecimal digits. -/
def unit? : List Char → Option (Nat × List Char)
  | a :: b :: c :: d :: rest => (Text.hexNumber? [a, b, c, d]).map (·, rest)
  | _ => none

/-- The character of one escaped unit or of a pair of them; half a pair stands for nothing. -/
def escapedChar? (cs : List Char) : Option (Char × List Char) := do
  let (high, rest) ← unit? cs
  if high < 0xD800 ∨ 0xDFFF < high then return (Char.ofNat high, rest)
  else if 0xDC00 ≤ high then none
  else
    match rest with
    | '\\' :: 'u' :: rest =>
      let (low, rest) ← unit? rest
      if low < 0xDC00 ∨ 0xDFFF < low then none
      else return (Char.ofNat (0x10000 + 1024 * (high - 0xD800) + (low - 0xDC00)), rest)
    | _ => none

/-- The character behind a backslash, if it stands for a single one. -/
def plainEscape? (c : Char) : Option Char :=
  if c = '"' ∨ c = '\\' ∨ c = '/' then some c
  else if c = 'n' then some '\n'
  else if c = 'r' then some '\r'
  else if c = 't' then some '\t'
  else if c = 'b' then some (Char.ofNat 8)
  else if c = 'f' then some (Char.ofNat 12)
  else none

/-- The rest of a text behind its opening quote, after the characters read so far, latest first.
Every step takes at least one character, so the length of the text is fuel enough. -/
def textFrom : Nat → List Char → List Char → Option (String × List Char)
  | 0, _, _ => none
  | fuel + 1, read, cs =>
    match cs with
    | [] => none
    | '"' :: rest => some (String.ofList read.reverse, rest)
    | '\\' :: 'u' :: rest => do
      let (c, rest) ← escapedChar? rest
      textFrom fuel (c :: read) rest
    | '\\' :: c :: rest => do textFrom fuel ((← plainEscape? c) :: read) rest
    | c :: rest => if c.toNat < 32 then none else textFrom fuel (c :: read) rest

/-- The rest of a text behind its opening quote. -/
def quotedText? (cs : List Char) : Option (String × List Char) := textFrom (cs.length + 1) [] cs

/-- A word of the language. -/
def word? (word : String) (v : Json) (cs : List Char) : Option (Json × List Char) :=
  if word.toList.isPrefixOf cs then some (v, cs.drop word.length) else none

mutual

/-- The value at the beginning of a text, nested no deeper than the fuel. -/
def valueFrom : Nat → List Char → Option (Json × List Char)
  | 0, _ => none
  | fuel + 1, cs =>
    match skip cs with
    | '"' :: rest => (quotedText? rest).map fun (s, rest) => (string s, rest)
    | '[' :: rest =>
      match skip rest with
      | ']' :: rest => some (array [], rest)
      | rest => (itemsFrom fuel rest).map fun (vs, rest) => (array vs, rest)
    | '\x7b' :: rest =>
      match skip rest with
      | '\x7d' :: rest => some (object [], rest)
      | rest => (membersFrom fuel rest).map fun (ms, rest) => (object ms, rest)
    | 't' :: rest => word? "rue" (bool true) rest
    | 'f' :: rest => word? "alse" (bool false) rest
    | 'n' :: rest => word? "ull" null rest
    | rest => (JsonNumber.read rest).map fun (n, rest) => (number n, rest)

/-- Items up to the closing bracket. -/
def itemsFrom : Nat → List Char → Option (List Json × List Char)
  | 0, _ => none
  | fuel + 1, cs => do
    let (v, rest) ← valueFrom fuel cs
    match skip rest with
    | ',' :: rest =>
      let (vs, rest) ← itemsFrom fuel rest
      return (v :: vs, rest)
    | ']' :: rest => return ([v], rest)
    | _ => none

/-- Members up to the closing bracket. -/
def membersFrom : Nat → List Char → Option (List (String × Json) × List Char)
  | 0, _ => none
  | fuel + 1, cs =>
    match skip cs with
    | '"' :: rest => do
      let (name, rest) ← quotedText? rest
      match skip rest with
      | ':' :: rest =>
        let (v, rest) ← valueFrom fuel rest
        match skip rest with
        | ',' :: rest =>
          let (ms, rest) ← membersFrom fuel rest
          return ((name, v) :: ms, rest)
        | '\x7d' :: rest => return ([(name, v)], rest)
        | _ => none
      | _ => none
    | _ => none

end

/-- The value of a text that holds nothing else. -/
def parse? (text : String) : Option Json :=
  let cs := text.toList
  match valueFrom (2 * cs.length + 2) cs with
  | some (v, rest) => if (skip rest).isEmpty then some v else none
  | none => none

end Json

end Gauge
