import Gauge.Decimal.Reading
import Gauge.Pattern.Basic
import Gauge.Text.Hexadecimal

/-!
# Reading patterns

The text of a pattern is read from left to right.  Groups, branches and the items of a branch are
kept on a stack of levels; flags hold up to the end of the level that sets them.

## Main definitions

* `Pattern.Mode` — the flags in force.
* `Pattern.escape?` — what follows a backslash.
* `Pattern.classFrom` — a set in brackets.
* `Pattern.readFrom` — a whole pattern.
* `Pattern.parse` — the pattern of a text, with `PatternFault` for what is wrong.
-/

namespace Gauge

/-- Why a text is no pattern. -/
inductive PatternFault where
  | malformed
  | tooLarge
  deriving DecidableEq

/-- The first line of the message. -/
def PatternFault.message : PatternFault → String
  | malformed => "regex parse error:"
  | tooLarge => s!"Compiled regex exceeds size limit of {Pattern.byteLimit} bytes."

namespace Pattern

/-- The flags in force. -/
structure Mode where
  anyCase : Bool := false
  /-- lines have starts and ends of their own -/
  multiLine : Bool := false
  /-- a dot is any character at all -/
  dotAll : Bool := false
  /-- lazy and greedy repetition change places, which decides no match -/
  swapGreed : Bool := false
  unicode : Bool := true
  /-- lines may end with a carriage return and a line feed -/
  crlf : Bool := false
  /-- blanks and comments do not count -/
  verbose : Bool := false

namespace Mode

/-- The mode after a flag. -/
def set? (m : Mode) (flag : Char) (value : Bool) : Option Mode :=
  if flag = 'i' then some { m with anyCase := value }
  else if flag = 'm' then some { m with multiLine := value }
  else if flag = 's' then some { m with dotAll := value }
  else if flag = 'U' then some { m with swapGreed := value }
  else if flag = 'u' then some { m with unicode := value }
  else if flag = 'R' then some { m with crlf := value }
  else if flag = 'x' then some { m with verbose := value }
  else none

/-- The text without leading blanks and comments. -/
def skipBlanks (inComment : Bool) : List Char → List Char
  | [] => []
  | c :: cs =>
    if inComment then skipBlanks (c ≠ '\n') cs
    else if Text.isBlank c then skipBlanks false cs
    else if c = '#' then skipBlanks true cs
    else c :: cs

/-- The text without what does not count at its beginning. -/
def skip (m : Mode) (cs : List Char) : List Char := if m.verbose then skipBlanks false cs else cs

/-- A set with all cases of its letters, if case does not count. -/
def folded (m : Mode) (s : CharSet) : CharSet :=
  if !m.anyCase then s else if m.unicode then .anyCase s else .anyAsciiCase s

/-- The complement of a set.  Without Unicode it would hold parts of characters. -/
def negated? (m : Mode) (negated : Bool) (s : CharSet) : Option CharSet :=
  if !negated then some s else if m.unicode then some (.compl s) else none

/-- One character as a pattern. -/
def literal? (m : Mode) (c : Char) : Option CharSet :=
  if m.anyCase && !m.unicode && 0x7f < c.toNat then none else some (m.folded (.single c))

/-- The classes of digits, blanks and word characters. -/
def shorthand (m : Mode) (letter : Char) : CharSet :=
  if m.unicode then
    if letter = 'd' then .digit else if letter = 's' then .blank else .wordChar
  else
    if letter = 'd' then .ranges [('0', '9')]
    else if letter = 's' then .union (.range 9 13) (.single ' ')
    else .ranges [('0', '9'), ('A', 'Z'), ('_', '_'), ('a', 'z')]

/-- The set of a dot. -/
def dot? (m : Mode) : Option CharSet :=
  if !m.unicode then none
  else if m.dotAll then some (.compl .empty)
  else if m.crlf then some (.compl (.union (.single '\n') (.single '\r')))
  else some (.compl (.single '\n'))

def caret (m : Mode) : Place :=
  if !m.multiLine then .textStart else if m.crlf then .crlfLineStart else .lineStart

def dollar (m : Mode) : Place :=
  if !m.multiLine then .textEnd else if m.crlf then .crlfLineEnd else .lineEnd

end Mode

/-! ## Escapes -/

/-- What a backslash and the characters behind it stand for. -/
inductive Escape where
  | literal (c : Char)
  | set (s : CharSet)
  | place (p : Place)

def charOfHex? (digits : List Char) : Option Char := do
  let n ← Text.hexNumber? digits
  if digits.isEmpty || !n.isValidChar then none else return Char.ofNat n

def hexDigits? (m : Mode) : Nat → List Char → Option (List Char × List Char)
  | 0, cs => some ([], cs)
  | n + 1, cs =>
    match cs with
    | c :: rest =>
      if (Text.hexValue? c).isSome then
        (hexDigits? m n (m.skip rest)).map fun (ds, rest) => (c :: ds, rest)
      else none
    | [] => none

/-- Characters up to a closing bracket. -/
def bracedFrom (m : Mode) : Nat → List Char → Option (List Char × List Char)
  | 0, _ => none
  | fuel + 1, cs =>
    match m.skip cs with
    | [] => none
    | '\x7d' :: rest => some ([], rest)
    | c :: rest => (bracedFrom m fuel rest).map fun (ds, rest) => (c :: ds, rest)

/-- A character by its code point, behind a letter that says how many digits it has. -/
def hexEscape? (m : Mode) (width : Nat) (cs : List Char) : Option (Escape × List Char) := do
  match m.skip cs with
  | '\x7b' :: rest =>
    let (digits, rest) ← bracedFrom m (rest.length + 1) rest
    return (.literal (← charOfHex? digits), m.skip rest)
  | cs =>
    let (digits, rest) ← hexDigits? m width cs
    let c ← charOfHex? digits
    if !m.unicode && width = 2 && 0x7f < c.toNat then none
    return (.literal c, rest)

/-- The Unicode properties by their names. -/
def properties : List (String × CharSet) :=
  [ ("any", .compl .empty), ("ascii", .range 0 0x7f), ("whitespace", .blank), ("space", .blank),
    ("nd", .digit), ("digit", .digit), ("decimalnumber", .digit) ]

/-- The name of a property without case, blanks, dashes and underscores. -/
def plainName (cs : List Char) : String :=
  String.ofList ((cs.filter fun c => !Text.isBlank c && c ≠ '-' && c ≠ '_').map Char.toLower)

/-- A Unicode property, by a letter or by a name in brackets. -/
def property? (m : Mode) (negated : Bool) (cs : List Char) : Option (Escape × List Char) := do
  let (name, rest) ← match m.skip cs with
    | '\x7b' :: rest => bracedFrom m (rest.length + 1) rest
    | c :: rest => some ([c], rest)
    | [] => none
  let s ← properties.lookup (plainName name)
  if m.unicode then return (.set (← m.negated? negated (m.folded s)), rest) else none

/-- The punctuation that patterns use. -/
def isMeta (c : Char) : Bool :=
  ['\\', '.', '+', '*', '?', '(', ')', '|', '[', ']', '\x7b', '\x7d', '^', '$', '#', '&', '-',
    '~'].contains c

/-- Whether a backslash takes the special meaning from a character: from ASCII characters that are
no letters, digits or angle brackets. -/
def isQuotable (c : Char) : Bool :=
  isMeta c || (c.toNat ≤ 0x7f && !c.isAlphanum && c ≠ '<' && c ≠ '>')

/-- The letters of the name of a place. -/
def placeNameFrom (m : Mode) : Nat → List Char → List Char × List Char
  | 0, cs => ([], cs)
  | fuel + 1, cs =>
    match cs with
    | c :: rest =>
      if c.isAlpha || c = '-' then
        let (name, rest) := placeNameFrom m fuel (m.skip rest)
        (c :: name, rest)
      else ([], cs)
    | [] => ([], [])

/-- The sides of a word by their names. -/
def namedPlace? (u : Bool) (name : String) : Option Place :=
  if name = "start" then some (.wordStart u)
  else if name = "end" then some (.wordEnd u)
  else if name = "start-half" then some (.behindNoWord u)
  else if name = "end-half" then some (.beforeNoWord u)
  else none

/-- A boundary of a word, with the name of a side in brackets if letters stand there. -/
def boundary? (m : Mode) (cs : List Char) : Option (Escape × List Char) :=
  match cs with
  | '\x7b' :: inner =>
    match m.skip inner with
    | [] => none
    | c :: rest =>
      if !(c.isAlpha || c = '-') then some (.place (.wordBoundary m.unicode), cs)
      else
        let (name, rest) := placeNameFrom m (rest.length + 2) (c :: rest)
        match rest with
        | '\x7d' :: rest =>
          (namedPlace? m.unicode (String.ofList name)).map fun p => (.place p, rest)
        | _ => none
  | cs => some (.place (.wordBoundary m.unicode), cs)

/-- What follows a backslash. -/
def escape? (m : Mode) (cs : List Char) : Option (Escape × List Char) := do
  match cs with
  | [] => none
  | c :: rest =>
    if c = 'x' then hexEscape? m 2 rest
    else if c = 'u' then hexEscape? m 4 rest
    else if c = 'U' then hexEscape? m 8 rest
    else if c = 'p' || c = 'P' then property? m (c = 'P') rest
    else if ['d', 's', 'w'].contains c then return (.set (m.shorthand c), rest)
    else if ['D', 'S', 'W'].contains c then
      return (.set (← m.negated? true (m.shorthand c.toLower)), rest)
    else if isQuotable c then return (.literal c, rest)
    else if c = 'a' then return (.literal (Char.ofNat 7), rest)
    else if c = 'f' then return (.literal (Char.ofNat 12), rest)
    else if c = 't' then return (.literal '\t', rest)
    else if c = 'n' then return (.literal '\n', rest)
    else if c = 'r' then return (.literal '\r', rest)
    else if c = 'v' then return (.literal (Char.ofNat 11), rest)
    else if c = 'A' then return (.place .textStart, rest)
    else if c = 'z' then return (.place .textEnd, rest)
    else if c = 'b' then boundary? m rest
    else if c = 'B' then return (.place (.insideOrOutside m.unicode), rest)
    else if c = '<' then return (.place (.wordStart m.unicode), rest)
    else if c = '>' then return (.place (.wordEnd m.unicode), rest)
    else none

/-! ## Sets in brackets -/

/-- A part of a set, with how deep it is nested. -/
structure SetPart where
  set : CharSet
  depth : Nat := 0

/-- The operations on sets. -/
inductive SetOp where
  | inter
  | diff
  | symmDiff

def SetOp.apply (op : SetOp) (m : Mode) (a b : SetPart) : SetPart :=
  let x := m.folded a.set
  let y := m.folded b.set
  { set := match op with
      | inter => .inter x y
      | diff => .diff x y
      | symmDiff => .symmDiff x y
    depth := max a.depth b.depth + 1 }

/-- A set that is being read: the operation that waits for its second operand, and the items of that
operand, latest first. -/
structure OpenSet where
  waiting : Option (SetPart × SetOp) := none
  items : List SetPart := []

namespace OpenSet

/-- The set with another item. -/
def push (s : OpenSet) (item : SetPart) : OpenSet := { s with items := item :: s.items }

/-- What has been read so far. -/
def finish (s : OpenSet) (m : Mode) : SetPart :=
  let operand : SetPart := match s.items with
    | [item] => item
    | items =>
      { set := .unions (items.reverse.map (·.set))
        depth := if items.isEmpty then 0 else (items.map (·.depth)).foldl max 0 + 1 }
  match s.waiting with
  | some (a, op) => op.apply m a operand
  | none => operand

/-- The set in front of an operation. -/
def operate (s : OpenSet) (m : Mode) (op : SetOp) : OpenSet := { waiting := some (s.finish m, op) }

end OpenSet

/-- An ASCII class behind its opening bracket. -/
def asciiClass? (m : Mode) (cs : List Char) : Option (SetPart × List Char) := do
  match cs with
  | ':' :: rest =>
    let (negated, rest) := match rest with
      | '^' :: rest => (true, rest)
      | rest => (false, rest)
    let name := String.ofList (rest.takeWhile (· ≠ ':'))
    match rest.dropWhile (· ≠ ':') with
    | ':' :: ']' :: rest =>
      let s ← CharSet.named? name
      return ({ set := (← m.negated? negated (m.folded s)) }, rest)
    | _ => none
  | _ => none

/-- One item of a set: a character or a class. -/
def setItem? (m : Mode) (cs : List Char) : Option (Escape × List Char) :=
  match cs with
  | [] => none
  | '\\' :: rest => escape? m rest
  | c :: rest => if !m.unicode && 0x7f < c.toNat then none else some (.literal c, rest)

/-- One item of a set, or a range between two characters. -/
def setRange? (m : Mode) (cs : List Char) : Option (SetPart × List Char) := do
  let (first, rest) ← setItem? m cs
  let alone : Option (SetPart × List Char) := match first with
    | .literal c => some ({ set := .single c }, rest)
    | .set s => some ({ set := s }, rest)
    | .place _ => none
  match m.skip rest with
  | [] => none
  | '-' :: more =>
    match m.skip more with
    | ']' :: _ => alone
    | '-' :: _ => alone
    | more =>
      let (last, rest) ← setItem? m more
      match first, last with
      | .literal a, .literal b =>
        if a ≤ b then return ({ set := .range a.toNat b.toNat }, rest) else none
      | _, _ => none
  | _ => alone

/-- Dashes at the beginning of a set stand for themselves. -/
def dashesFrom (m : Mode) : Nat → OpenSet → List Char → OpenSet × List Char
  | 0, s, cs => (s, cs)
  | fuel + 1, s, cs =>
    match cs with
    | '-' :: rest => dashesFrom m fuel (s.push { set := .single '-' }) (m.skip rest)
    | cs => (s, cs)

/-- The beginning of a set behind its opening bracket: a caret, dashes, and a closing bracket that
stands for itself if nothing is in front of it.  The flag says whether there is a caret. -/
def openSet (m : Mode) (cs : List Char) : Bool × OpenSet × List Char :=
  let (negated, rest) := match m.skip cs with
    | '^' :: rest => (true, m.skip rest)
    | cs => (false, cs)
  let (s, rest) := dashesFrom m (rest.length + 1) {} rest
  match s.items, rest with
  | [], ']' :: rest => (negated, s.push { set := .single ']' }, m.skip rest)
  | _, rest => (negated, s, rest)

/-- A set behind its opening bracket.  Every step takes at least one character. -/
def classFrom (m : Mode) : Nat → OpenSet → Bool → List Char → Option (SetPart × List Char)
  | 0, _, _, _ => none
  | fuel + 1, s, negated, cs =>
    match m.skip cs with
    | [] => none
    | ']' :: rest => do
      let part := s.finish m
      return ({ set := (← m.negated? negated (m.folded part.set)), depth := part.depth + 1 }, rest)
    | '[' :: rest =>
      match asciiClass? m rest with
      | some (item, rest) => classFrom m fuel (s.push item) negated rest
      | none => do
        let (inverse, inner, rest) := openSet m rest
        let (item, rest) ← classFrom m fuel inner inverse rest
        classFrom m fuel (s.push item) negated rest
    | '&' :: '&' :: rest => classFrom m fuel (s.operate m .inter) negated rest
    | '-' :: '-' :: rest => classFrom m fuel (s.operate m .diff) negated rest
    | '~' :: '~' :: rest => classFrom m fuel (s.operate m .symmDiff) negated rest
    | cs => do
      let (item, rest) ← setRange? m cs
      classFrom m fuel (s.push item) negated rest

/-- A set behind its opening bracket. -/
def class? (m : Mode) (cs : List Char) : Option (SetPart × List Char) :=
  let (negated, s, rest) := openSet m cs
  classFrom m (rest.length + 1) s negated rest

/-! ## Repetitions -/

/-- A number of repetitions. -/
def countFrom (m : Mode) : Nat → List Char → List Char → List Char × List Char
  | 0, read, cs => (read.reverse, cs)
  | fuel + 1, read, cs =>
    match cs with
    | c :: rest =>
      if c.isDigit then countFrom m fuel (c :: read) (m.skip rest) else (read.reverse, cs)
    | [] => (read.reverse, [])

/-- A number of repetitions, with blanks around it; there may be none. -/
def count? (m : Mode) (cs : List Char) : Option (Option Nat × List Char) :=
  let cs := cs.dropWhile Text.isBlank
  let (digits, rest) := countFrom m (cs.length + 1) [] cs
  let n := digitsValue digits
  let rest := m.skip (rest.dropWhile Text.isBlank)
  if digits.isEmpty then some (none, rest)
  else if n < UInt32.size then some (some n, rest)
  else none

/-- The bounds of a repetition behind the opening bracket. -/
def bounds? (m : Mode) (cs : List Char) : Option ((Nat × Option Nat) × List Char) := do
  let (least, rest) ← count? m (m.skip cs)
  let least ← least
  match rest with
  | '\x7d' :: rest => return ((least, some least), rest)
  | ',' :: rest =>
    match m.skip rest with
    | '\x7d' :: rest => return ((least, none), rest)
    | rest =>
      let (most, rest) ← count? m rest
      let most ← most
      match rest with
      | '\x7d' :: rest => if least ≤ most then return ((least, some most), rest) else none
      | _ => none
  | _ => none

/-- The text without a question mark that makes a repetition lazy. -/
def skipLazy : List Char → List Char
  | '?' :: rest => rest
  | cs => cs

/-! ## Groups and branches -/

/-- An item of a branch, with how deep it is nested, and whether it can be repeated. -/
structure Item where
  pattern : Pattern
  depth : Nat := 0
  repeatable : Bool := true

/-- A group that is being read: its finished branches and the items of its last branch, latest
first. -/
structure Level where
  mode : Mode := {}
  branches : List Item := []
  items : List Item := []

/-- How deep patterns may be nested. -/
def deepest : Nat := 250

namespace Level

/-- The level with another item. -/
def push (l : Level) (item : Item) : Level := { l with items := item :: l.items }

/-- How deep a list of items is nested. -/
def depthOf (items : List Item) : Nat :=
  match items with
  | [item] => item.depth
  | [] => 0
  | items => (items.map (·.depth)).foldl max 0 + 1

def branch (l : Level) : Item where
  pattern := l.items.foldl (fun p item => .seq item.pattern p) .empty
  depth := depthOf l.items

/-- The level with a new branch. -/
def nextBranch (l : Level) : Level := { l with branches := l.branch :: l.branches, items := [] }

/-- All branches as one item. -/
def finish (l : Level) : Item :=
  let last := l.branch
  { pattern := l.branches.foldl (fun p b => .alt b.pattern p) last.pattern
    depth := depthOf (last :: l.branches) }

/-- Repeats the last item, if there is one that can be. -/
def repeatLast? (l : Level) (least : Nat) (most : Option Nat) : Option Level :=
  match l.items with
  | item :: items =>
    if item.repeatable then
      some { l with
        items := { pattern := .repeated item.pattern least most, depth := item.depth + 1 } :: items }
    else none
  | [] => none

end Level

/-- What an opening bracket begins. -/
inductive Opening where
  /-- flags for the rest of the group around it -/
  | flags (mode : Mode)
  | group (mode : Mode) (name : Option String)

/-- Flags up to the end of a group's head.  `seen` holds those that were read, and `dangling` says
that the last one was the sign of negation. -/
def flagsFrom (m : Mode) (seen : List Char) (negated dangling : Bool) :
    List Char → Option (Opening × List Char)
  | [] => none
  | ':' :: rest => if dangling then none else some (.group m none, rest)
  | ')' :: rest => if dangling || (seen.isEmpty && !negated) then none else some (.flags m, rest)
  | '-' :: rest => if negated then none else flagsFrom m seen true true rest
  | c :: rest =>
    if seen.contains c then none
    else
      match m.set? c !negated with
      | some m => flagsFrom m (c :: seen) negated false rest
      | none => none

/-- Whether a character can be in the name of a group. -/
def isNameChar (first : Bool) (c : Char) : Bool :=
  c = '_' || Text.isAlphabetic c ||
    (!first && (c = '.' || c = '[' || c = ']' || Text.isDecimalDigit c))

/-- The name of a group up to its closing bracket. -/
def groupName? (cs : List Char) : Option (String × List Char) :=
  let name := cs.takeWhile (· ≠ '>')
  match cs.dropWhile (· ≠ '>'), name with
  | _ :: rest, first :: others =>
    if isNameChar true first && others.all (isNameChar false) then
      some (String.ofList name, rest)
    else none
  | _, _ => none

/-- What stands behind an opening bracket.  There is no looking ahead or back. -/
def opening? (m : Mode) (cs : List Char) : Option (Opening × List Char) :=
  let named (rest : List Char) : Option (Opening × List Char) :=
    (groupName? rest).map fun (name, rest) => (.group m (some name), rest)
  match m.skip cs with
  | '?' :: '=' :: _ => none
  | '?' :: '!' :: _ => none
  | '?' :: '<' :: '=' :: _ => none
  | '?' :: '<' :: '!' :: _ => none
  | '?' :: 'P' :: '<' :: rest => named rest
  | '?' :: '<' :: rest => named rest
  | '?' :: rest => flagsFrom m [] false false rest
  | rest => some (.group m none, rest)

/-- A character, a dot, a place or an escape. -/
def primitive? (m : Mode) (cs : List Char) : Option (Item × List Char) := do
  match cs with
  | [] => none
  | '\\' :: rest =>
    let (e, rest) ← escape? m rest
    match e with
    | .literal c => return ({ pattern := .chars (← m.literal? c) }, rest)
    | .set s => return ({ pattern := .chars s }, rest)
    | .place p => return ({ pattern := .place p }, rest)
  | '.' :: rest => return ({ pattern := .chars (← m.dot?) }, rest)
  | '^' :: rest => return ({ pattern := .place m.caret }, rest)
  | '$' :: rest => return ({ pattern := .place m.dollar }, rest)
  | c :: rest => return ({ pattern := .chars (← m.literal? c) }, rest)

/-- The rest of a pattern, inside the groups that are open, innermost first; `names` are those of
the groups so far.  Every step takes at least one character, so the length of the text is fuel
enough. -/
def readFrom : Nat → List Level → Level → List String → List Char → Option Item
  | 0, _, _, _, _ => none
  | fuel + 1, outer, top, names, cs =>
    match top.mode.skip cs with
    | [] => if outer.isEmpty then some top.finish else none
    | '(' :: rest => do
      match ← opening? top.mode rest with
      | (.flags mode, rest) =>
        let mark : Item := { pattern := .empty, repeatable := false }
        readFrom fuel outer { top.push mark with mode := mode } names rest
      | (.group mode name, rest) =>
        if name.any names.contains then none
        readFrom fuel (top :: outer) { mode := mode } (name.toList ++ names) rest
    | ')' :: rest =>
      match outer with
      | level :: outer =>
        let inner := top.finish
        readFrom fuel outer (level.push { inner with depth := inner.depth + 1, repeatable := true })
          names rest
      | [] => none
    | '|' :: rest => readFrom fuel outer top.nextBranch names rest
    | '[' :: rest => do
      let (part, rest) ← class? top.mode rest
      readFrom fuel outer (top.push { pattern := .chars part.set, depth := part.depth }) names rest
    | '?' :: rest => do
      readFrom fuel outer (← top.repeatLast? 0 (some 1)) names (skipLazy rest)
    | '*' :: rest => do readFrom fuel outer (← top.repeatLast? 0 none) names (skipLazy rest)
    | '+' :: rest => do readFrom fuel outer (← top.repeatLast? 1 none) names (skipLazy rest)
    | '\x7b' :: rest => do
      let ((least, most), rest) ← bounds? top.mode rest
      readFrom fuel outer (← top.repeatLast? least most) names (skipLazy (top.mode.skip rest))
    | cs => do
      let (item, rest) ← primitive? top.mode cs
      readFrom fuel outer (top.push item) names rest

def parse (text : String) : Except PatternFault Pattern :=
  let cs := text.toList
  match readFrom (cs.length + 1) [] {} [] cs with
  | none => .error .malformed
  | some item =>
    if deepest < item.depth then .error .malformed
    else if item.pattern.isTooLarge then .error .tooLarge
    else .ok item.pattern

end Pattern

end Gauge
