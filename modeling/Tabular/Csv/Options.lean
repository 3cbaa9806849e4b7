import Tabular.Byte

/-!
The limits of a parse: how wide and how large a record may be, and how much is read at once.
-/
namespace Tabular.Csv

structure Options where
  /-- The byte between two cells. -/
  delimiter : UInt8 := Byte.comma
  /-- A record with more cells fails the parse. -/
  maxColumns : Nat := 1024
  /-- The size of the row buffer, which holds the text of a whole record. -/
  bufferSize : Nat := 262144
  /-- How many bytes one refill asks of the source. -/
  readChunk : Nat := 65536
  deriving DecidableEq, Repr, Inhabited

def Options.isUsable (o : Options) : Bool :=
  o.bufferSize != 0 && o.maxColumns != 0 && o.readChunk != 0

/-- No buffer can be larger than this, the greatest signed number of 64 bits, whatever memory
there is. -/
def largestBuffer : Nat := 9223372036854775807

end Tabular.Csv
