import Tabular.Error
import Tabular.Host.Value

/-!
Cursors as their host sees them, and the reading of a whole table through one.
-/
namespace Tabular.Host

class Cursor (σ : Type) where
  /-- Go to the first row. -/
  filter : σ → Except Error Unit × σ
  /-- Go to the next row. -/
  next : σ → Except Error Unit × σ
  /-- There is no row here, nor any further on. -/
  atEnd : σ → Bool
  /-- Leave the value of a column for the host. -/
  column : σ → ColumnContext → Int → Except Error ColumnContext
  /-- The number of the row. -/
  rowid : σ → Int
  /-- No more rows than this are left from here on. -/
  rowBound : σ → Nat

structure ScannedRow where
  rowid : Int
  values : List Value
  deriving DecidableEq, Repr, Inhabited

variable {σ : Type} [Cursor σ]

def columnValue (cursor : σ) (column : Nat) : Except Error Value :=
  (Cursor.column cursor {} column).map fun context => context.value.getD .null

def currentRow (cursor : σ) (width : Nat) : Except Error ScannedRow :=
  ((List.range width).mapM (columnValue cursor)).map fun values =>
    { rowid := Cursor.rowid cursor, values }

/-- The rows from here on, in front of which come those in `before`, which are reversed. At most
`limit` rows are read. -/
def rowsFrom (width : Nat) (before : List ScannedRow) :
    Nat → σ → Except Error (List ScannedRow) × σ
  | 0, cursor => (.ok before.reverse, cursor)
  | limit + 1, cursor =>
    if Cursor.atEnd cursor then (.ok before.reverse, cursor)
    else
      match currentRow cursor width with
      | .error error => (.error error, cursor)
      | .ok row =>
        match Cursor.next cursor with
        | (.error error, cursor) => (.error error, cursor)
        | (.ok (), cursor) => rowsFrom width (row :: before) limit cursor

/-- All rows. The first failure ends the scan. -/
def allRows (width : Nat) (cursor : σ) : Except Error (List ScannedRow) × σ :=
  match Cursor.filter cursor with
  | (.error error, cursor) => (.error error, cursor)
  | (.ok (), cursor) => rowsFrom width [] (Cursor.rowBound cursor + 1) cursor

end Tabular.Host
