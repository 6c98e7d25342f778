/-!
# Files

A disk as a program sees it: a tree of directories and files, and a directory to
start from.  A location is the list of names on the way from the root, and a disk
lists its locations; nothing else about files matters here.

A *path* is text that leads to a location.  `locate` follows it name by name, and
each step needs a directory to be made from: going through a file fails differently
from going through nothing.  A path that ends in a slash makes one more step, which
stays where it is but needs a directory as well.

Two kinds of entries are neither files nor directories.

* A *device* keeps nothing.  It can be written like a file and is empty all the same.
* A *link* stands for another location.  A step that arrives at a link goes on from
  where the link leads, so a location that was arrived at is never a link, as long as
  links do not lead to links (`follow`).

Reading gives the bytes of a file, writing replaces them, and each can fail in the
ways of `FileError`.
-/

namespace Chip8

/-- Why a file could not be read or written. -/
inductive FileError where
  | notFound
  /-- The path goes through a file. -/
  | notDirectory
  | isDirectory
  /-- The path, or a name in it, is too long. -/
  | nameTooLong
  /-- The path has a character that no path can have. -/
  | badCharacter
  deriving DecidableEq

/-- The text of a file error. -/
def FileError.message : FileError → String
  | notFound => "No such file or directory (os error 2)"
  | notDirectory => "Not a directory (os error 20)"
  | isDirectory => "Is a directory (os error 21)"
  | nameTooLong => "File name too long (os error 36)"
  | badCharacter => "file name contained an unexpected NUL byte"

/-- The names on the way from the root. -/
abbrev Location := List String

/-- What is found at a location. -/
inductive Node where
  | file (bytes : List UInt8)
  /-- A device.  What is written to it is gone, and there is nothing to read. -/
  | device
  /-- Another name for what is found at a location. -/
  | link (target : Location)
  | directory
  deriving DecidableEq

/-- A disk. -/
structure Disk where
  /-- What is found where, each location once. -/
  nodes : List (Location × Node)
  /-- Where paths start that do not start at the root. -/
  home : Location

namespace Disk

/-- What is found at a location, if anything is. -/
def node? (d : Disk) (l : Location) : Option Node := d.nodes.lookup l

/-- Put something at a location, in the place of what was there. -/
def put (d : Disk) (l : Location) (n : Node) : Disk :=
  if (d.node? l).isSome then
    { d with nodes := d.nodes.map fun entry => if entry.1 = l then (l, n) else entry }
  else { d with nodes := d.nodes ++ [(l, n)] }

/-! ## Paths -/

/-- The most bytes a name can have. -/
def nameLimit : Nat := 255

/-- The most bytes a path can have. -/
def pathLimit : Nat := 4095

/-- The pieces of a path between its slashes. -/
def pieces (path : String) : List String :=
  (path.toList.splitOn '/').map String.ofList

/-- Where a step to a location arrives. -/
def follow (d : Disk) (l : Location) : Location :=
  match d.node? l with
  | some (.link target) => target
  | _ => l

/-- Follow the pieces of a path from a location.  What is found at the end, if
anything, is not looked at. -/
def walk (d : Disk) (here : Location) : List String → Except FileError Location
  | [] => .ok here
  | piece :: rest =>
      match d.node? here with
      | none => .error .notFound
      | some .directory =>
          if piece = "" ∨ piece = "." then d.walk here rest
          else if piece = ".." then d.walk here.dropLast rest
          else if piece.utf8ByteSize > nameLimit then .error .nameTooLong
          else d.walk (d.follow (here ++ [piece])) rest
      | some _ => .error .notDirectory

/-- The location that a path leads to. -/
def locate (d : Disk) (path : String) : Except FileError Location :=
  if path.toList.contains '\x00' then .error .badCharacter
  else if path.isEmpty then .error .notFound
  else if path.utf8ByteSize > pathLimit then .error .nameTooLong
  else d.walk (if path.toList.head? = some '/' then [] else d.home) (pieces path)

/-- The pieces of a path that are more than a step in place. -/
def names (path : String) : List String := (pieces path).filter fun p => p ≠ "" ∧ p ≠ "."

/-- The bytes of the name that a path gives to what it leads to. -/
def fileName (path : String) : List UInt8 := ((names path).getLast?.getD path).toUTF8.toList

/-! ## Reading and writing -/

/-- The bytes of a file. -/
def read (d : Disk) (path : String) : Except FileError (List UInt8) :=
  match d.locate path with
  | .error e => .error e
  | .ok l =>
      match d.node? l with
      | none => .error .notFound
      | some (.file bytes) => .ok bytes
      | some .device => .ok []
      | some .directory => .error .isDirectory
      | some (.link _) => .error .notFound

/-- Write a file, in the place of what it held. -/
def write (d : Disk) (path : String) (bytes : List UInt8) : Except FileError Disk :=
  match d.locate path with
  | .error e => .error e
  | .ok l =>
      match d.node? l with
      | some .device => .ok d
      | some .directory => .error .isDirectory
      | _ => .ok (d.put l (.file bytes))

/-! ## The directory to start from -/

/-- Put something under a path below the start, along with the directories on the
way.  A path that ends in a slash is a directory, whatever is given. -/
def add (d : Disk) (path : String) (bytes : List UInt8) : Disk :=
  let names := names path
  let parents := (List.range names.length).map fun k => d.home ++ names.take k
  let d := parents.foldl (fun d l => if (d.node? l).isSome then d else d.put l .directory) d
  let last := if path.toList.getLast? = some '/' then Node.directory else .file bytes
  d.put (d.home ++ names) last

/-- The files in the directory to start from, each with its name.  Files in the
directories below it are not among them. -/
def files (d : Disk) : List (String × List UInt8) :=
  d.nodes.filterMap fun (l, n) =>
    match l.getLast?, n with
    | some name, .file bytes => if l.dropLast = d.home then some (name, bytes) else none
    | _, _ => none

end Disk
end Chip8
