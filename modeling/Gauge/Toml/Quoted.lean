import Gauge.Text.Hexadecimal

/-!
# Quoted texts in TOML

A text stands between quotes, on one line or between triple quotes on several.  Between apostrophes
every character stands for itself; between double quotes a backslash begins an escape.

## Main definitions

* `Toml.Quote` — the two kinds of quotes.
* `Toml.lineText?` — the text behind an opening quote.
* `Toml.quotedText?` — a text of either layout.
-/

namespace Gauge.Toml

/-- Blanks inside a line. -/
def isBlank (c : Char) : Bool := c = ' ' || c = '\t'

/-- The text without leading blanks. -/
def skip (cs : List Char) : List Char := cs.dropWhile isBlank

/-- Splits the end of a line off. -/
def newline? : List Char → Option (List Char)
  | '\n' :: rest => some rest
  | '\r' :: '\n' :: rest => some rest
  | _ => none

/-- A character that may stand in texts and comments: a tab, or no control character. -/
def isPlain (c : Char) : Bool := c = '\t' || (32 ≤ c.toNat && c.toNat ≠ 127)

/-- The kinds of quotes. -/
inductive Quote where
  | double
  | apostrophe
  deriving DecidableEq

/-- The character that opens and closes a text. -/
def Quote.mark : Quote → Char
  | double => '"'
  | apostrophe => Char.ofNat 39

/-- The character with a code point of so many hexadecimal digits. -/
def codePoint? (width : Nat) (cs : List Char) : Option (Char × List Char) := do
  let n ← Text.hexNumber? (cs.take width)
  if width ≤ cs.length ∧ n.isValidChar then return (Char.ofNat n, cs.drop width) else none

/-- The character of an escape, behind its backslash. -/
def escape? : List Char → Option (Char × List Char)
  | 'b' :: rest => some (Char.ofNat 8, rest)
  | 't' :: rest => some ('\t', rest)
  | 'n' :: rest => some ('\n', rest)
  | 'f' :: rest => some (Char.ofNat 12, rest)
  | 'r' :: rest => some ('\r', rest)
  | '"' :: rest => some ('"', rest)
  | '\\' :: rest => some ('\\', rest)
  | 'u' :: rest => codePoint? 4 rest
  | 'U' :: rest => codePoint? 8 rest
  | _ => none

/-- The text behind an opening quote, after the characters read so far, latest first.  Every step
takes at least one character, so the length of the text is fuel enough. -/
def lineFrom (q : Quote) : Nat → List Char → List Char → Option (String × List Char)
  | 0, _, _ => none
  | fuel + 1, read, cs =>
    match cs with
    | [] => none
    | c :: rest =>
      if c = q.mark then some (String.ofList read.reverse, rest)
      else if c = '\\' ∧ q = .double then do
        let (c, rest) ← escape? rest
        lineFrom q fuel (c :: read) rest
      else if isPlain c then lineFrom q fuel (c :: read) rest
      else none

/-- The text behind an opening quote. -/
def lineText? (q : Quote) (cs : List Char) : Option (String × List Char) :=
  lineFrom q (cs.length + 1) [] cs

/-! ## Several lines -/

/-- The text without leading blanks and ends of lines. -/
def skipLines : List Char → List Char
  | [] => []
  | '\r' :: '\n' :: rest => skipLines rest
  | c :: rest => if isBlank c ∨ c = '\n' then skipLines rest else c :: rest

/-- A backslash at the end of a line: the text goes on where the next visible character stands. -/
def joinedLine? (cs : List Char) : Option (List Char) := (newline? (skip cs)).map skipLines

/-- How many quotes belong to the text in front of the closing triple, if the triple stands here. -/
def closing? (q : Quote) (cs : List Char) : Option Nat :=
  let run := (cs.takeWhile (· = q.mark)).length
  if run < 3 then none else some (run - 3)

/-- The text behind an opening triple of quotes, after the characters read so far, latest first.
Every step takes at least one character, so the length of the text is fuel enough. -/
def blockFrom (q : Quote) : Nat → List Char → List Char → Option (String × List Char)
  | 0, _, _ => none
  | fuel + 1, read, cs =>
    match closing? q cs with
    | some extra =>
      if extra ≤ 2 then
        some (String.ofList (List.replicate extra q.mark ++ read).reverse, cs.drop (extra + 3))
      else none
    | none =>
      match newline? cs, cs with
      | some rest, _ => blockFrom q fuel ('\n' :: read) rest
      | none, [] => none
      | none, c :: rest =>
        if c = '\\' ∧ q = .double then
          match joinedLine? rest with
          | some rest => blockFrom q fuel read rest
          | none => do
            let (c, rest) ← escape? rest
            blockFrom q fuel (c :: read) rest
        else if isPlain c then blockFrom q fuel (c :: read) rest
        else none

/-- The text behind an opening triple of quotes; an end of line right behind it is left out. -/
def blockText? (q : Quote) (cs : List Char) : Option (String × List Char) :=
  blockFrom q (cs.length + 1) [] ((newline? cs).getD cs)

/-- A text of either layout. -/
def quotedText? (q : Quote) (cs : List Char) : Option (String × List Char) :=
  match cs with
  | a :: b :: c :: rest =>
    if a = q.mark ∧ b = q.mark ∧ c = q.mark then blockText? q rest
    else if a = q.mark then lineText? q (b :: c :: rest)
    else none
  | a :: rest => if a = q.mark then lineText? q rest else none
  | [] => none

end Gauge.Toml
