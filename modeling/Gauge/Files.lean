import Gauge.Named

/-!
# Files

The files that a program finds: texts in a tree of directories.  A path leads from a directory of the
tree, or from its root when it begins with a slash.

## Main definitions

* `Files` — the texts by their paths, and the directories without any.
* `FileFault` — why a path cannot be read or written.
* `Files.resolve` — the place in the tree that a path leads to.
* `Files.read`, `Files.write`, `Files.holds` — access to a path.
-/

namespace Gauge

/-- The names on the way from the root of the tree. -/
abbrev Path := List String

/-- The files of a tree. -/
structure Files where
  texts : List (Path × String) := []
  /-- directories that are there although they hold nothing -/
  directories : List Path := []

/-- Why a path cannot be read or written. -/
inductive FileFault where
  | missing
  | notADirectory
  | isADirectory
  | nameTooLong
  deriving DecidableEq

def FileFault.message : FileFault → String
  | missing => "No such file or directory (os error 2)"
  | notADirectory => "Not a directory (os error 20)"
  | isADirectory => "Is a directory (os error 21)"
  | nameTooLong => "File name too long (os error 36)"

/-- The texts between slashes. -/
def splitSlashes : List Char → List (List Char)
  | [] => [[]]
  | c :: cs =>
    if c = '/' then [] :: splitSlashes cs
    else
      match splitSlashes cs with
      | [] => [[c]]
      | part :: parts => (c :: part) :: parts

namespace Files

/-- The text at a place, if it is a file. -/
def text? (fs : Files) (place : Path) : Option String := fs.texts.lookup place

/-- Whether a place is a directory: the root, or on the way to something. -/
def isDirectory (fs : Files) (place : Path) : Bool :=
  place.isEmpty || fs.directories.any place.isPrefixOf ||
    fs.texts.any fun e => place.isPrefixOf e.1 && place ≠ e.1

/-- What is wrong with a place that should be a directory. -/
def checkDirectory (fs : Files) (place : Path) : Except FileFault Unit :=
  if fs.isDirectory place then .ok ()
  else if (fs.text? place).isSome then .error .notADirectory
  else .error .missing

/-- The bytes that a name may have. -/
def maxNameSize : Nat := 255

/-- The bytes that a path may have. -/
def maxPathSize : Nat := 4095

/-- Follows the names of a path.  A name leads on from a directory only, and above the root is the
root. -/
def follow (fs : Files) (place : Path) : List String → Except FileFault Path
  | [] => .ok place
  | name :: names =>
    (fs.checkDirectory place).bind fun _ =>
      if name = "" ∨ name = "." then fs.follow place names
      else if name = ".." then fs.follow place.dropLast names
      else if name.utf8ByteSize > maxNameSize then .error .nameTooLong
      else fs.follow (place ++ [name]) names

def names (path : String) : List String := (splitSlashes path.toList).map String.ofList

/-- The place that a path leads to. -/
def resolve (fs : Files) (directory : Path) (path : String) : Except FileFault Path :=
  if path.isEmpty then .error .missing
  else if path.utf8ByteSize > maxPathSize then .error .nameTooLong
  else fs.follow (if path.startsWith "/" then [] else directory) (names path)

/-- Reads the file at a path. -/
def read (fs : Files) (directory : Path) (path : String) : Except FileFault String :=
  (fs.resolve directory path).bind fun place =>
    match fs.text? place with
    | some text => .ok text
    | none => .error (if fs.isDirectory place then .isADirectory else .missing)

def holds (fs : Files) (directory : Path) (path : String) : Bool :=
  match fs.resolve directory path with
  | .ok place => (fs.text? place).isSome || fs.isDirectory place
  | .error _ => false

/-- The files with a text at a place. -/
def put (place : Path) (text : String) : List (Path × String) → List (Path × String)
  | [] => [(place, text)]
  | e :: es => if e.1 = place then (place, text) :: es else e :: put place text es

/-- A path without the slashes at its end. -/
def withoutTrailing (path : String) : String :=
  String.ofList (path.toList.reverse.dropWhile (· = '/')).reverse

/-- Writes the file at a path, over an older one.  A slash at the end asks for a directory. -/
def write (fs : Files) (directory : Path) (path text : String) : Except FileFault Files :=
  let bare := withoutTrailing path
  (fs.resolve directory (if bare.isEmpty then path else bare)).bind fun place =>
    if bare ≠ path || fs.isDirectory place then .error .isADirectory
    else .ok { fs with texts := put place text fs.texts }

end Files

end Gauge
