import Tabular.Byte

/-!
The row buffer and what is found in it. The text of a record lies in the buffer in one piece,
and each of its cells is a span of it.
-/
namespace Tabular.Csv

/-- The place of one cell in the row buffer. A span is plain data: it outlives the record it
was made for, and only the generation kept beside it tells whether it still means anything. -/
structure CellSpan where
  offset : Nat
  length : Nat
  quoted : Bool
  deriving DecidableEq, Repr, Inhabited

def CellSpan.stop (span : CellSpan) : Nat := span.offset + span.length

structure RowBuffer where
  capacity : Nat
  /-- The bytes written since the front was last cleared. -/
  live : Array UInt8 := #[]
  /-- The bytes of earlier records that still lie behind the live ones. Memory behind these
  was never written and holds zeros. -/
  stale : Bytes := []
  deriving Repr, Inhabited

namespace RowBuffer

def memory (b : RowBuffer) : Bytes :=
  let written := b.live.toList ++ b.stale
  written ++ List.replicate (b.capacity - written.length) 0

/-- `length` bytes of the memory from `offset` on, found without building all of it. -/
def read (b : RowBuffer) (offset length : Nat) : Bytes :=
  let fresh := (b.live.extract offset (offset + length)).toList
  let old := (b.stale.drop (offset - b.live.size)).take (length - fresh.length)
  fresh ++ old ++ List.replicate (length - fresh.length - old.length) 0

theorem read_eq_memory (b : RowBuffer) (offset length : Nat)
    (inside : offset + length ≤ b.capacity) (fits : b.live.size + b.stale.length ≤ b.capacity) :
    b.read offset length = (b.memory.drop offset).take length := by
  have rest : length - min length (b.live.size - offset) = length - (b.live.size - offset) := by
    omega
  simp only [read, Array.toList_extract, List.extract_eq_take_drop, Nat.add_sub_cancel_left,
    List.length_take, List.length_drop, Array.length_toList, List.append_assoc, memory,
    List.length_append, List.drop_append, List.drop_replicate, List.take_append,
    List.take_replicate, List.append_cancel_left_eq]
  rw [rest]
  congr 2
  omega

def get? (b : RowBuffer) (span : CellSpan) : Option Bytes :=
  if span.stop ≤ b.capacity then some (b.read span.offset span.length) else none

/-- Move the live bytes from `start` on to the front. What they are not moved over stays. -/
def shift (b : RowBuffer) (start : Nat) : RowBuffer :=
  if start = 0 then b else
    { b with
      live := b.live.extract start b.live.size
      stale := (b.live.extract (b.live.size - start) b.live.size).toList ++ b.stale }

@[simp] theorem shift_capacity (b : RowBuffer) (start : Nat) :
    (b.shift start).capacity = b.capacity := by
  unfold shift
  split <;> rfl

def extended (b : RowBuffer) (live : Array UInt8) (added : Nat) : RowBuffer :=
  { b with live, stale := b.stale.drop added }

end RowBuffer

structure Row where
  /-- Its place among the records of the input, counted from 1. -/
  number : Nat
  /-- The parser step that completed it. -/
  generation : Nat
  spans : Array CellSpan
  /-- The live bytes of the row buffer. -/
  text : Array UInt8
  deriving DecidableEq, Repr, Inhabited

namespace Row

def cell (row : Row) (span : CellSpan) : Cell :=
  { bytes := (row.text.extract span.offset span.stop).toList, quoted := span.quoted }

def cells (row : Row) : List Cell := row.spans.toList.map row.cell

end Row

end Tabular.Csv
