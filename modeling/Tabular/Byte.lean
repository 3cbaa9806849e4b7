/-!
Byte strings and the bytes that carry meaning in delimited text: the quote, the two line
breaks and the mark that may open a UTF-8 file.
-/
namespace Tabular

abbrev Bytes := List UInt8

namespace Byte

def quote : UInt8 := 34
def comma : UInt8 := 44
def lineFeed : UInt8 := 10
def carriageReturn : UInt8 := 13

/-- Either byte ends a record outside quotes, and both are skipped between records. -/
def isLineBreak (b : UInt8) : Bool := b == lineFeed || b == carriageReturn

end Byte

/-- The three bytes that UTF-8 files may begin with and that are no part of their text. -/
def byteOrderMark : Bytes := [0xEF, 0xBB, 0xBF]

def startsWithMark (bytes : Bytes) : Bool := byteOrderMark.isPrefixOf bytes

theorem startsWithMark_iff (bytes : Bytes) :
    startsWithMark bytes = true ↔ ∃ rest, bytes = byteOrderMark ++ rest := by
  unfold startsWithMark
  rw [List.isPrefixOf_iff_prefix]
  exact ⟨fun ⟨rest, same⟩ => ⟨rest, same.symm⟩, fun ⟨rest, same⟩ => ⟨rest, same.symm⟩⟩

/-- One cell of a record: its text without quoting, and whether it was written in quotes. -/
structure Cell where
  bytes : Bytes
  quoted : Bool
  deriving DecidableEq, Repr, Inhabited

end Tabular
