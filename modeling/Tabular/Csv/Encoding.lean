import Tabular.Csv.Grammar

/-!
How cells, rows and whole tables are written, each given at once. Cells are in quotes where the
quotes are needed or wanted, and no row is written as a blank line, since readers take no
account of those.
-/
namespace Tabular.Csv

def needsQuotes (text : Bytes) : Bool :=
  text.any fun b => b == Byte.comma || b == Byte.quote || Byte.isLineBreak b

def doubled (b : UInt8) : Bytes := if b = Byte.quote then [b, b] else [b]

theorem doubled_length_le (b : UInt8) : (doubled b).length ≤ 2 := by
  unfold doubled
  split <;> simp

namespace Encoding

def quoted (text : Bytes) : Bytes := Byte.quote :: text.flatMap doubled ++ [Byte.quote]

/-- A cell, in quotes if it is marked as quoted or needs them. -/
def cell (c : Cell) : Bytes := if c.quoted || needsQuotes c.bytes then quoted c.bytes else c.bytes

def cells (r : Record) : Bytes := [Byte.comma].intercalate (r.map cell)

/-- A row with the line break that ends it. Where nothing would stand in front of the line
break, a pair of quotes does. -/
def row (r : Record) : Bytes :=
  (if r.length = 1 && (cells r).isEmpty then quoted [] else cells r) ++ [Byte.lineFeed]

def table (withMark : Bool) (rows : List Record) : Bytes :=
  (if withMark then byteOrderMark else []) ++ rows.flatMap row

end Encoding

end Tabular.Csv
