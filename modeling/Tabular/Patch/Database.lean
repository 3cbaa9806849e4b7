import Tabular.Decimal.Plain
import Tabular.Patch.DatabaseName
import Tabular.Patch.Overwrite
import Tabular.Sql.Reader
import Tabular.Text.Utf8

/-!
Overwrites read from a database. The database holds one table of patches with the columns `r`,
`c` and `v`, each value keeping the type it was stored with, and a query names the row, the
column and the text of every overwrite.
-/
namespace Tabular.Patch

inductive Stored where
  | null
  | integer (value : Int)
  /-- A floating-point number, given by its bits. -/
  | real (bits : UInt64)
  | text (bytes : Bytes)
  | blob (bytes : Bytes)
  deriving DecidableEq, Repr, Inhabited

namespace Stored

/-- What is stored for a floating-point number: one that is not a number is stored as NULL. -/
def ofReal (bits : UInt64) : Stored :=
  if Decimal.Binary64.ofBits bits = .nan then .null else .real bits

def typeName : Stored → String
  | .null => "Null"
  | .integer _ => "Integer"
  | .real _ => "Real"
  | .text _ => "Text"
  | .blob _ => "Blob"

def bytes : Stored → Bytes
  | .null => []
  | .integer value => Utf8.encode (toString value)
  | .real bits => Utf8.encode (Decimal.Binary64.ofBits bits).plain
  | .text bytes | .blob bytes => bytes

/-- Types in the order in which a database sorts their values. -/
def rank : Stored → Nat
  | .null => 0
  | .integer _ | .real _ => 1
  | .text _ => 2
  | .blob _ => 3

/-- A finite number as a fraction of a power of two, or the sign of an infinite one. -/
def magnitude : Stored → Int × Nat × Int
  | .integer value => (value, 1, 0)
  | .real bits =>
    match Decimal.Binary64.ofBits bits with
    | .finite negative mantissa exponent _ =>
      let signed : Int := if negative then -mantissa else mantissa
      (signed * (1 <<< exponent.toNat : Nat), 1 <<< (-exponent).toNat, 0)
    | .infinite negative => (0, 1, if negative then -1 else 1)
    | _ => (0, 1, 0)
  | _ => (0, 1, 0)

def compareNumbers (a b : Stored) : Ordering :=
  let (na, da, ia) := a.magnitude
  let (nb, db, ib) := b.magnitude
  (compare ia ib).then (compare (na * db) (nb * da))

/-- The order of values: NULL, then numbers, then texts and then blobs, both by their bytes. -/
def order (a b : Stored) : Ordering :=
  (compare a.rank b.rank).then
    (match a, b with
      | .text s, .text t | .blob s, .blob t => compare s t
      | _, _ => if a.rank = 1 then compareNumbers a b else .eq)

end Stored

structure StoredRow where
  r : Stored
  c : Stored
  v : Stored
  deriving DecidableEq, Repr, Inhabited

structure Database where
  rows : List StoredRow
  deriving Repr, Inhabited

inductive Selected where
  | r
  | c
  | v
  | number (value : Nat)
  deriving DecidableEq, Repr

inductive SortKey where
  | r
  | c
  | v
  | insertion
  deriving DecidableEq, Repr

structure Query where
  selected : List Selected
  /-- The rows are those of the table; otherwise there is one row, of numbers. -/
  fromTable : Bool
  sortKeys : List SortKey
  deriving DecidableEq, Repr

namespace Selected

def name : Selected → String
  | .r => "r"
  | .c => "c"
  | .v => "v"
  | .number value => toString value

def value (row : StoredRow) : Selected → Stored
  | .r => row.r
  | .c => row.c
  | .v => row.v
  | .number value => .integer value

def reader : Sql.Reader Selected := do
  match ← Sql.Reader.next with
  | .word _ "R" => return .r
  | .word _ "C" => return .c
  | .word _ "V" => return .v
  | .number digits false =>
    match digits.toNat? with
    | some value => return .number value
    | none => Sql.Reader.mismatch
  | _ => Sql.Reader.mismatch

end Selected

def SortKey.reader : Sql.Reader SortKey := do
  match ← Sql.Reader.next with
  | .word _ "R" => return .r
  | .word _ "C" => return .c
  | .word _ "V" => return .v
  | .word _ "ROWID" => return .insertion
  | _ => Sql.Reader.mismatch

/-- The order of two rows by some keys. Rows that tie stay as they were inserted, so the order
of insertion never has to be looked at. -/
def StoredRow.order (a b : StoredRow) : List SortKey → Ordering
  | [] => .eq
  | .r :: rest => (a.r.order b.r).then (a.order b rest)
  | .c :: rest => (a.c.order b.c).then (a.order b rest)
  | .v :: rest => (a.v.order b.v).then (a.order b rest)
  | .insertion :: _ => .eq

namespace Query

/-- A query: `select` some items, perhaps `from patches` and perhaps `order by` some keys. -/
def reader : Sql.Reader Query := do
  Sql.Reader.keyword "SELECT"
  let selected ← Sql.Reader.list Selected.reader
  if ← Sql.Reader.keywords? ["FROM", "PATCHES"] then
    let sortKeys ← if ← Sql.Reader.keywords? ["ORDER", "BY"] then
        Sql.Reader.list SortKey.reader
      else pure []
    return { selected, fromTable := true, sortKeys }
  else return { selected, fromTable := false, sortKeys := [] }

def parse? (sql : String) : Option Query := do
  match reader (← Sql.Token.ofText sql.toList) with
  | .ok query [] => some query
  | _ => none

def run (q : Query) (database : Database) : List (List Stored) :=
  if q.fromTable then
    (database.rows.mergeSort fun a b => a.order b q.sortKeys != .gt).map fun row =>
      q.selected.map (Selected.value row)
  else [q.selected.map (Selected.value default)]

end Query

def wrongType (value : Stored) (index : Nat) (name : String) : Error :=
  .overwriteSource
    s!"Invalid column type {value.typeName} at index: {index}, name: {name}"

def position (value : Stored) (index : Nat) (name : String) : Except Error Int :=
  match value with
  | .integer n => .ok n
  | _ => .error (wrongType value index name)

/-- The overwrite that a row of a result stands for. Negative positions stand for none. -/
def overwrite? (names : List String) (row : List Stored) : Except Error (Option Overwrite) := do
  let r ← position (row.getD 0 .null) 0 (names.getD 0 "")
  let c ← position (row.getD 1 .null) 1 (names.getD 1 "")
  if r < 0 || c < 0 then .ok none
  else .ok (some { row := r.toNat, column := c.toNat, value := (row.getD 2 .null).bytes })

inductive Store where
  /-- A database without any table. -/
  | blank
  /-- A file that is no database. Only when a table is asked for does this show. -/
  | foreign
  | database (rows : Database)
  deriving Repr, Inhabited

def Store.patches : Store → Except Error Database
  | .blank => .error (.overwriteSource "no such table: patches")
  | .foreign => .error (.overwriteSource "file is not a database")
  | .database rows => .ok rows

/-- The overwrites that a query yields, in the order of its result. The whole result is read
at once, so that one wrong row leaves none. -/
def Store.overwrites (store : Store) (sql : String) : Except Error (List Overwrite) :=
  match Query.parse? sql with
  | none => .error (.overwriteSource s!"unknown query: {sql}")
  | some q => do
    let rows ← if q.fromTable then store.patches else .ok default
    if q.selected.length < 3 then
      .error (.overwriteSource "query must return row, column and value")
    else
      ((q.run rows).mapM (overwrite? (q.selected.map Selected.name))).map
        (·.filterMap id)

inductive Target where
  | nothing
  | directory
  | store (store : Store)
  deriving Repr, Inhabited

def openStore (target : Bytes → Target) (name : String) : Except Error Store :=
  let failed (detail : String) : Error := .overwriteSource s!"{detail}: {name}"
  match DatabaseName.parse name with
  | .error detail => .error (failed detail)
  | .ok .fresh => .ok .blank
  | .ok (.path path) =>
    match target path with
    | .nothing => .error (failed s!"unable to open database file: {name}")
    | .directory => .error (failed "disk I/O error")
    | .store found => .ok found

def readDatabase (target : Bytes → Target) (name sql : String) : Except Error (List Overwrite) := do
  (← openStore target name).overwrites sql

end Tabular.Patch
