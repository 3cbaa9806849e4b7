import Std.Data.HashSet
import Tabular.Byte
import Tabular.Text
import Tabular.Text.Utf8

/-!
The columns of a table, named by its header. Blank cells get generated names, repeated names
get a number, and the names make up the declaration given to the host.
-/
namespace Tabular.Table

/-- The generated names of one process, counted in 32 bits. -/
abbrev BlankCounter := UInt32

def blankName (count : BlankCounter) : String :=
  if count = 0 then "Blank_Column" else s!"Blank_Column_{count}"

def cellName (cell : Cell) (count : BlankCounter) : String × BlankCounter :=
  if cell.bytes.isEmpty then (blankName count, count + 1)
  else (Utf8.decodeLossy cell.bytes, count)

/-- The names of header cells before repeats are told apart, in front of those in `before`, which
are reversed. -/
def cellNamesInto (before : List String) : List Cell → BlankCounter → List String × BlankCounter
  | [], count => (before.reverse, count)
  | cell :: rest, count =>
      let (name, count) := cellName cell count
      cellNamesInto (name :: before) rest count

def cellNames (cells : List Cell) (count : BlankCounter) : List String × BlankCounter :=
  cellNamesInto [] cells count

def numbered (name : String) (number : Nat) : String := s!"{name}_{number}"

/-- The least number from `number` on that makes `name` new, if `tries` of them are enough. -/
def freeNumber (taken : Std.HashSet String) (name : String) : Nat → Nat → Nat
  | 0, number => number
  | tries + 1, number =>
      if taken.contains (Text.lower (numbered name number)) then
        freeNumber taken name tries (number + 1)
      else number

/-- A name as it is, or with the least number from 2 on that makes it new. There are fewer
taken names than numbers tried. -/
def freeName (taken : Std.HashSet String) (name : String) : String :=
  if taken.contains (Text.lower name) then numbered name (freeNumber taken name taken.size 2)
  else name

def dedupeFrom (taken : Std.HashSet String) (before : List String) : List String → List String
  | [] => before.reverse
  | name :: rest =>
      let name := freeName taken name
      dedupeFrom (taken.insert (Text.lower name)) (name :: before) rest

/-- Tell repeated names apart. The first of equal names stays as it is. -/
def dedupe (names : List String) : List String := dedupeFrom {} [] names

structure HeaderColumns where
  names : List String
  /-- The positions of the header cells that were empty. -/
  blank : List Nat
  deriving DecidableEq, Repr, Inhabited

def blankPositions (cells : List Cell) : List Nat :=
  (cells.zipIdx.filter fun (cell, _) => cell.bytes.isEmpty).map Prod.snd

def quoteIdentifier (name : String) : String :=
  String.ofList ('"' :: name.toList.flatMap (fun c => if c = '"' then [c, c] else [c]) ++ ['"'])

namespace HeaderColumns

def infer (cells : List Cell) (count : BlankCounter) : HeaderColumns × BlankCounter :=
  let (names, count) := cellNames cells count
  ({ names := dedupe names, blank := blankPositions cells }, count)

def createTableSql (columns : HeaderColumns) : String :=
  let definitions := columns.names.map fun name => quoteIdentifier name ++ " TEXT"
  "CREATE TABLE x(" ++ String.intercalate "," definitions ++ ")"

end HeaderColumns

end Tabular.Table
