import Tabular.Csv.FieldEncoder
import Tabular.Stream.Output

/-!
A writer of delimited text. Cells are encoded one at a time through a scratch of limited size,
and a row that would come out as a blank line is written as an empty pair of quotes.
-/
namespace Tabular.Csv

/-- The size of the memory a field passes through. It takes an opening quote and a doubled one
together. -/
structure Scratch where
  size : Nat
  wide : 3 ≤ size := by decide

def Scratch.standard : Scratch := { size := 1024 }

structure Writer where
  out : Output
  /-- Quotes the cells that need it. -/
  necessary : FieldEncoder := { always := false }
  /-- Quotes every cell. -/
  always : FieldEncoder := { always := true }
  scratch : Scratch := .standard
  /-- Cells of the current row so far. -/
  cells : Nat := 0
  /-- Bytes written for the cells of the current row, delimiters apart. -/
  rowBytes : Nat := 0

namespace Writer

def put (w : Writer) (bytes : Bytes) : Except Error Unit × Writer :=
  let (outcome, out) := w.out.write bytes
  (outcome, { w with out })

/-- A writer at the start of an output. The byte-order mark is written at once if it is
wanted. -/
def new (out : Output) (withMark : Bool) (scratch : Scratch := .standard) :
    Except Error Unit × Writer :=
  let w : Writer := { out, scratch }
  if withMark then w.put byteOrderMark else (.ok (), w)

def encoder (w : Writer) (forced : Bool) : FieldEncoder := if forced then w.always else w.necessary

def withEncoder (w : Writer) (forced : Bool) (e : FieldEncoder) : Writer :=
  if forced then { w with always := e } else { w with necessary := e }

def putText (w : Writer) (bytes : Bytes) : Except Error Unit × Writer :=
  match w.put bytes with
  | (.error error, w) => (.error error, w)
  | (.ok (), w) => (.ok (), { w with rowBytes := w.rowBytes + bytes.length })

def field (w : Writer) (forced : Bool) (text : Bytes) : Except Error Unit × Writer :=
  let piece := (w.encoder forced).encode text w.scratch.size
  match (w.withEncoder forced piece.encoder).putText piece.out with
  | (.error error, w) => (.error error, w)
  | (.ok (), next) =>
    if _more : piece.rest = [] then (.ok (), next) else next.field forced piece.rest
termination_by text.length
decreasing_by exact FieldEncoder.encode_rest_lt _ _ _ w.scratch.wide _more

def closeField (w : Writer) (forced : Bool) : Except Error Unit × Writer :=
  let (e, closing) := (w.encoder forced).close
  (w.withEncoder forced e).putText closing

def separate (w : Writer) : Except Error Unit × Writer :=
  if w.cells = 0 then (.ok (), w) else w.put [Byte.comma]

/-- Append a cell to the current row, in quotes if they are needed or `forced`. -/
def cell (w : Writer) (text : Bytes) (forced : Bool) : Except Error Unit × Writer :=
  match w.separate with
  | (.error error, w) => (.error error, w)
  | (.ok (), w) =>
    match field { w with cells := w.cells + 1 } forced text with
    | (.error error, w) => (.error error, w)
    | (.ok (), w) => w.closeField forced

/-- Write the quotes that keep a row of one empty cell from becoming a blank line. -/
def fillBlankRow (w : Writer) : Except Error Unit × Writer :=
  if w.cells = 1 && w.rowBytes = 0 then w.put [Byte.quote, Byte.quote] else (.ok (), w)

def endRow (w : Writer) : Except Error Unit × Writer :=
  match w.fillBlankRow with
  | (.error error, w) => (.error error, w)
  | (.ok (), w) =>
    match w.put [Byte.lineFeed] with
    | (.error error, w) => (.error error, w)
    | (.ok (), w) => (.ok (), { w with cells := 0, rowBytes := 0 })

def flush (w : Writer) : Except Error Unit := w.out.flush

end Writer

end Tabular.Csv
