import Tabular.Csv.Parser

/-!
Rows kept from a parse, first in first out. A row either owns a copy of its cells or remembers
where in the parser's buffer they lie, together with the parser step that put them there.
-/
namespace Tabular.Table

inductive RowCells where
  | owned (cells : Array Cell)
  | borrowed (generation : Nat) (spans : Array Csv.CellSpan)
  deriving DecidableEq, Repr, Inhabited

/-- A kept row with its number: 0 for the header, 1 and up for the rows of data. -/
structure CachedRow where
  id : Int
  cells : RowCells
  deriving DecidableEq, Repr, Inhabited

/-- Finds the bytes of a span made in a given generation, if they are still there. -/
abbrev SpanSource := Csv.CellSpan → Nat → Except Error Bytes

namespace CachedRow

def owned (row : Csv.Row) (id : Int) : CachedRow :=
  { id, cells := .owned row.cells.toArray }

def borrowed (row : Csv.Row) (id : Int) : CachedRow :=
  { id, cells := .borrowed row.generation row.spans }

def cellCount (row : CachedRow) : Nat :=
  match row.cells with
  | .owned cells => cells.size
  | .borrowed _ spans => spans.size

/-- The cell at a position, none past the end of the row, or the failure to find its bytes. -/
def cell (row : CachedRow) (index : Nat) (source : SpanSource) : Except Error (Option Cell) :=
  match row.cells with
  | .owned cells => .ok cells[index]?
  | .borrowed generation spans =>
    match spans[index]? with
    | none => .ok none
    | some span => (source span generation).map fun bytes => some { bytes, quoted := span.quoted }

def ownedCells (row : CachedRow) : Option (Array Cell) :=
  match row.cells with
  | .owned cells => some cells
  | .borrowed .. => none

end CachedRow

structure RowCache where
  rows : Array CachedRow := #[]
  deriving DecidableEq, Repr, Inhabited

namespace RowCache

def size (c : RowCache) : Nat := c.rows.size

def isEmpty (c : RowCache) : Bool := c.rows.isEmpty

@[simp] theorem isEmpty_empty : isEmpty {} = true := rfl

def append (c : RowCache) (row : CachedRow) : RowCache := { rows := c.rows.push row }

def head? (c : RowCache) : Option CachedRow := c.rows[0]?

def headId? (c : RowCache) : Option Int := c.head?.map CachedRow.id

def pop (c : RowCache) : RowCache := { rows := c.rows.extract 1 c.rows.size }

def peek (c : RowCache) (index : Nat) (source : SpanSource) : Except Error (Option Cell) :=
  match c.head? with
  | some row => row.cell index source
  | none => .ok none

end RowCache

end Tabular.Table
