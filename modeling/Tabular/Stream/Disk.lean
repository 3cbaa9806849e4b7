import Tabular.Stream.Source

/-!
A disk of files and directories. A file keeps its number when it is written again, so whoever
has it open sees the new bytes; once it is removed its number is never used again.
-/
namespace Tabular

inductive Disk.Entry where
  | file (number : Nat)
  | directory
  deriving DecidableEq, Repr

structure Disk where
  /-- What each name stands for. A name is given by its parts. -/
  entries : List (List Bytes × Disk.Entry) := []
  /-- The bytes of every file that ever was. -/
  contents : Array Bytes := #[]
  deriving Repr, Inhabited

namespace Disk

def slash : UInt8 := 47
def dot : UInt8 := 46

def parts (path : Bytes) : List Bytes := path.splitOn slash

/-- The entry of a name. The empty name is the working directory itself. -/
def entry? (disk : Disk) (name : List Bytes) : Option Entry :=
  if name.isEmpty then some .directory else disk.entries.lookup name

def isDirectory (disk : Disk) (name : List Bytes) : Bool := disk.entry? name == some .directory

inductive Place where
  /-- A name below the working directory, its parts in reverse. -/
  | below (name : List Bytes)
  /-- A directory above the working directory, of which nothing more is known. -/
  | above

/-- Follow a path from a place. Every part but the last is looked up in a directory. -/
def follow (disk : Disk) : Place → List Bytes → Option Place
  | place, [] => some place
  | .above, part :: rest =>
      if part = [] || part = [dot] || part = [dot, dot] then disk.follow .above rest else none
  | .below name, part :: rest =>
      if !disk.isDirectory name.reverse then none
      else if part = [] || part = [dot] then disk.follow (.below name) rest
      else if part = [dot, dot] then
        match name with
        | [] => disk.follow .above rest
        | _ :: parent => disk.follow (.below parent) rest
      else disk.follow (.below (part :: name)) rest

def entryAt? (disk : Disk) : Place → Option Entry
  | .below name => disk.entry? name.reverse
  | .above => some .directory

def pathLimit : Nat := 4095

def place? (disk : Disk) (path : Bytes) : Option Place :=
  if path.isEmpty || pathLimit < path.length then none
  else disk.follow (if path.head? == some slash then .above else .below []) (parts path)

def find? (disk : Disk) (path : Bytes) : Option Entry := (disk.place? path).bind disk.entryAt?

structure Opened where
  source : Source
  number : Option Nat := none

/-- Open a path for reading. Each read of a file brings as much as is asked for and left, and its
seeks never fail; short and failing reads are those of other sources. A directory can be opened,
but not read. -/
def open? (disk : Disk) (path : Bytes) : Option Opened :=
  (disk.find? path).map fun
    | .file number =>
      { source := .ofBytes (disk.contents[number]?.getD []), number := some number }
    | .directory => { source := .unreadable "Is a directory (os error 21)" }

/-- The name below the working directory that a path leads to, or else its own parts, under
which nothing is ever found. -/
def nameOf (disk : Disk) (path : Bytes) : List Bytes :=
  match disk.place? path with
  | some (.below name) => name.reverse
  | _ => (parts path).filter fun part => part != []

def addDirectory (disk : Disk) (path : Bytes) : Disk :=
  let name := disk.nameOf path
  let made := (List.range name.length).map fun n => (name.take (n + 1), Entry.directory)
  { disk with entries := made ++ disk.entries }

/-- Write a file, in place if there is one of that name. The number tells which. -/
def write (disk : Disk) (path content : Bytes) : Nat × Disk :=
  let name := disk.nameOf path
  match disk.entry? name with
  | some (.file number) =>
    (number, { disk with contents := disk.contents.setIfInBounds number content })
  | _ =>
    let number := disk.contents.size
    (number, { entries := (name, .file number) :: disk.entries
               contents := disk.contents.push content })

/-- Remove a name. Its file stays with whoever has it open. -/
def remove (disk : Disk) (path : Bytes) : Disk :=
  let name := disk.nameOf path
  { disk with entries := disk.entries.filter fun entry => entry.1 != name }

/-! ## Paths that are first made plain -/

def partLimit : Nat := 255

/-- Follow a path by its text alone: a part that leads up takes away the one before it, whether
or not there is such a directory. What is below a file cannot be looked for, though, not even
to turn back. -/
def reduce (disk : Disk) : Place → List Bytes → Option Place
  | place, [] => some place
  | place, part :: rest =>
      if part = [] || part = [dot] then disk.reduce place rest
      else
        match place with
        | .above => if part = [dot, dot] then disk.reduce .above rest else none
        | .below name =>
          if part = [dot, dot] then
            match name with
            | [] => disk.reduce .above rest
            | _ :: parent => disk.reduce (.below parent) rest
          else if partLimit < part.length then none
          else
            match disk.entry? name.reverse with
            | some (.file _) => none
            | _ => disk.reduce (.below (part :: name)) rest

/-- What a path leads to by its text alone. Of an absolute path nothing is known. -/
def findReduced? (disk : Disk) (path : Bytes) : Option Entry :=
  if path.head? == some slash then none
  else (disk.reduce (.below []) (parts path)).bind disk.entryAt?

end Disk

end Tabular
