import Tabular.Byte

/-!
The records of delimited text, given all of it at once. Nothing here knows of buffers, of reads
or of limits: this is what a parse is to deliver.

A record is a row of cells parted by the delimiter. It ends at the first line break outside
quotes or with the text, and line breaks between records do not count.
-/
namespace Tabular.Csv

abbrev Record := List Cell

namespace Grammar

def endsCell (delimiter b : UInt8) : Bool := b == delimiter || Byte.isLineBreak b

/-- The text behind an opening quote up to the quote that closes it, which is the first one not
followed by another, and what follows that. A doubled quote stands for one. Quotes that are
never closed reach to the end. -/
def quotedText : Bytes → Bytes × Bytes
  | [] => ([], [])
  | [b] => (if b = Byte.quote then [] else [b], [])
  | b :: next :: rest =>
      if b = Byte.quote then
        if next = Byte.quote then
          let (text, rest) := quotedText rest
          (Byte.quote :: text, rest)
        else ([], next :: rest)
      else
        let (text, rest) := quotedText (next :: rest)
        (b :: text, rest)

def plainText (delimiter : UInt8) (text : Bytes) : Bytes × Bytes :=
  (text.takeWhile fun b => !endsCell delimiter b, text.dropWhile fun b => !endsCell delimiter b)

/-- The first cell of a text, and what follows it. A cell that opens with a quote may go on
behind the quote that closes it. -/
def cell (delimiter : UInt8) (text : Bytes) : Cell × Bytes :=
  match text with
  | b :: rest =>
    if b = Byte.quote then
      let (inside, rest) := quotedText rest
      let (behind, rest) := plainText delimiter rest
      ({ bytes := inside ++ behind, quoted := true }, rest)
    else
      let (bytes, rest) := plainText delimiter text
      ({ bytes, quoted := false }, rest)
  | [] => ({ bytes := [], quoted := false }, [])

theorem quotedText_length_le (text : Bytes) : (quotedText text).2.length ≤ text.length := by
  fun_induction quotedText text with
  | case1 => exact Nat.le_refl _
  | case2 b => exact Nat.zero_le _
  | case3 rest inside after same ih =>
    rw [same] at ih
    exact Nat.le_trans ih (Nat.le_add_right _ 2)
  | case4 next rest other => simp
  | case5 b next rest other inside after same ih =>
    rw [same] at ih
    simp only [List.length_cons] at ih ⊢
    omega

theorem plainText_length_le (delimiter : UInt8) (text : Bytes) :
    (plainText delimiter text).2.length ≤ text.length := by
  exact (List.dropWhile_suffix _).length_le

theorem cell_length_le (delimiter : UInt8) (text : Bytes) :
    (cell delimiter text).2.length ≤ text.length := by
  unfold cell
  split
  · rename_i b rest
    split
    · have inside := quotedText_length_le rest
      have behind := plainText_length_le delimiter (quotedText rest).2
      simp only [List.length_cons]
      omega
    · exact plainText_length_le delimiter _
  · exact Nat.le_refl _

def record (delimiter : UInt8) (text : Bytes) : Record × Bytes :=
  match _first : cell delimiter text with
  | (c, []) => ([c], [])
  | (c, b :: rest) =>
    if b = delimiter then
      let (cells, rest) := record delimiter rest
      (c :: cells, rest)
    else ([c], rest)
termination_by text.length
decreasing_by
  have shorter := cell_length_le delimiter text
  rw [_first] at shorter
  exact shorter

theorem record_length_le (delimiter : UInt8) (text : Bytes) :
    (record delimiter text).2.length ≤ text.length := by
  fun_induction record delimiter text with
  | case1 text c first => exact Nat.zero_le _
  | case2 text c rest cells after same first ih =>
    have shorter := cell_length_le delimiter text
    rw [first] at shorter
    rw [same] at ih
    exact Nat.le_trans ih (Nat.le_of_lt shorter)
  | case3 text c b rest first other =>
    have shorter := cell_length_le delimiter text
    rw [first] at shorter
    exact Nat.le_of_lt shorter

theorem record_length_lt (delimiter : UInt8) (text : Bytes) (some_text : text ≠ []) :
    (record delimiter text).2.length < text.length := by
  have shorter := cell_length_le delimiter text
  unfold record
  split
  · exact List.length_pos_iff.mpr some_text
  · rename_i c b rest first
    rw [first] at shorter
    simp only [List.length_cons] at shorter
    split
    · have later := record_length_le delimiter rest
      show (record delimiter rest).2.length < text.length
      omega
    · show rest.length < text.length
      omega

def records (delimiter : UInt8) (text : Bytes) : List Record :=
  let text := text.dropWhile Byte.isLineBreak
  if _empty : text = [] then []
  else
    let first := record delimiter text
    first.1 :: records delimiter first.2
termination_by text.length
decreasing_by
  exact Nat.lt_of_lt_of_le (record_length_lt delimiter _ _empty)
    (List.dropWhile_suffix _).length_le

def withoutMark (text : Bytes) : Bytes :=
  if startsWithMark text then text.drop byteOrderMark.length else text

end Grammar

/-- The records of an input, of which a byte-order mark at its start is no part. -/
def reference (delimiter : UInt8) (input : Bytes) : List Record :=
  Grammar.records delimiter (Grammar.withoutMark input)

end Tabular.Csv
