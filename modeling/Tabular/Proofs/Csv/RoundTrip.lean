import Tabular.Proofs.Csv.WholeInput
import Tabular.Proofs.Csv.Written

/-!
What is written reads back. The encoding of a table holds the records that were written, and
nothing in a cell, be it a quote, a comma or a line break, is taken for the end of the cell. So a
parse of what a writer put out hands over the rows that went in, however both of them are cut into
pieces.
-/
namespace Tabular.Csv

open Grammar

namespace Encoding

def isQuoted (c : Cell) : Bool := c.quoted || needsQuotes c.bytes

/-- A record as it reads back. The flags tell which of its cells were written in quotes: one that
is empty and alone in its row is as well. -/
def readBack (r : Record) : Record :=
  r.map fun c => { c with quoted := isQuoted c || (c.bytes.isEmpty && r.length = 1) }

/-! ## A cell -/

theorem quotedText_doubled (text rest : Bytes) (behind : rest.head? ≠ some Byte.quote) :
    quotedText (text.flatMap doubled ++ Byte.quote :: rest) = (text, rest) := by
  induction text with
  | nil =>
    cases rest with
    | nil => rfl
    | cons b rest =>
      have other : b ≠ Byte.quote := fun same => behind (by rw [same]; rfl)
      simp only [List.flatMap_nil, List.nil_append, quotedText, if_neg other, ↓reduceIte]
  | cons b text ih =>
    rw [List.flatMap_cons, List.append_assoc]
    by_cases quote : b = Byte.quote
    · subst quote
      show quotedText (Byte.quote :: Byte.quote :: (text.flatMap doubled ++ Byte.quote :: rest)) = _
      rw [quotedText, if_pos rfl, if_pos rfl, ih]
    · rw [doubled, if_neg quote, List.singleton_append, quotedText_cons quote, ih]

theorem needsQuotes_eq_false {text : Bytes} (plain : needsQuotes text = false) {b : UInt8}
    (member : b ∈ text) : b ≠ Byte.quote ∧ endsCell Byte.comma b = false := by
  have none := List.any_eq_false.mp plain b member
  simp only [Bool.or_eq_true, beq_iff_eq, not_or] at none
  obtain ⟨⟨comma, quote⟩, breaks⟩ := none
  refine ⟨quote, ?_⟩
  rw [endsCell, Bool.or_eq_false_iff, beq_eq_false_iff_ne]
  exact ⟨comma, by simpa using breaks⟩

theorem plainText_append {text rest : Bytes} (plain : needsQuotes text = false)
    (ends : ∀ b, rest.head? = some b → endsCell Byte.comma b = true) :
    plainText Byte.comma (text ++ rest) = (text, rest) := by
  induction text with
  | nil =>
    cases rest with
    | nil => rfl
    | cons b rest => exact plainText_cons_end (ends b rfl) rest
  | cons b text ih =>
    have more := (needsQuotes_eq_false plain List.mem_cons_self).2
    have plain' : needsQuotes text = false := by
      rw [needsQuotes, List.any_cons, Bool.or_eq_false_iff] at plain
      exact plain.2
    rw [List.cons_append, plainText_cons_more more, ih plain']

theorem ne_quote_of_endsCell {b : UInt8} (ends : endsCell Byte.comma b = true) :
    b ≠ Byte.quote := by
  rintro rfl
  exact absurd ends (by decide)

theorem cell_written (c : Cell) (rest : Bytes) (something : cell c ++ rest ≠ [])
    (ends : ∀ b, rest.head? = some b → endsCell Byte.comma b = true) :
    Grammar.cell Byte.comma (cell c ++ rest) =
      ({ bytes := c.bytes, quoted := isQuoted c }, rest) := by
  rw [cell, ← isQuoted] at something ⊢
  cases shown : isQuoted c with
  | true =>
    have behind : rest.head? ≠ some Byte.quote := fun same =>
      ne_quote_of_endsCell (ends _ same) rfl
    have none : plainText Byte.comma ([] ++ rest) = ([], rest) := plainText_append rfl ends
    rw [List.nil_append] at none
    rw [if_pos rfl, quoted, List.cons_append, List.cons_append, List.append_assoc,
      List.singleton_append, Grammar.cell, if_pos rfl, quotedText_doubled _ _ behind]
    dsimp only
    rw [none]
    dsimp only
    rw [List.append_nil]
  | false =>
    rw [shown, if_neg Bool.false_ne_true] at something
    rw [if_neg Bool.false_ne_true]
    have plain : needsQuotes c.bytes = false := (Bool.or_eq_false_iff.mp shown).2
    have reads := plainText_append plain ends
    rcases text : c.bytes ++ rest with _ | ⟨b, more⟩
    · exact absurd text something
    · rw [text] at reads
      have other : b ≠ Byte.quote := by
        cases bytes : c.bytes with
        | nil =>
          rw [bytes, List.nil_append] at text
          exact ne_quote_of_endsCell (ends b (by rw [text]; rfl))
        | cons first later =>
          rw [bytes, List.cons_append] at text
          obtain ⟨rfl, -⟩ := List.cons.inj text
          exact (needsQuotes_eq_false plain (by rw [bytes]; exact List.mem_cons_self)).1
      rw [cell_cons_plain _ other, reads]

/-! ## A row -/

@[simp] theorem cells_cons_cons (c d : Cell) (rest : Record) :
    cells (c :: d :: rest) = cell c ++ Byte.comma :: cells (d :: rest) := by
  rw [cells, List.map_cons, List.map_cons, List.intercalate_cons_cons, List.append_assoc,
    List.singleton_append]
  rfl

@[simp] theorem cells_singleton (c : Cell) : cells [c] = cell c := by
  rw [cells, List.map_singleton, List.intercalate_singleton]

theorem record_written (c : Cell) (more : Record) (rest : Bytes) :
    record Byte.comma (cells (c :: more) ++ Byte.lineFeed :: rest) =
      ((c :: more).map fun c => { c with quoted := isQuoted c }, rest) := by
  induction more generalizing c with
  | nil =>
    have read := cell_written c (Byte.lineFeed :: rest) (by simp) (by rintro b ⟨rfl⟩; decide)
    rw [cells_singleton, record_eq, read, closeCell, if_neg (by decide)]
    rfl
  | cons d more ih =>
    have read := cell_written c (Byte.comma :: (cells (d :: more) ++ Byte.lineFeed :: rest))
      (by simp) (by rintro b ⟨rfl⟩; decide)
    rw [cells_cons_cons, List.append_assoc, List.cons_append, record_eq, read, closeCell,
      if_pos rfl, ih]
    rfl

@[simp] theorem isQuoted_flagged (c : Cell) (alone : Bool) :
    isQuoted { c with quoted := isQuoted c || alone } = (isQuoted c || alone) := by
  unfold isQuoted
  cases c.quoted <;> cases needsQuotes c.bytes <;> cases alone <;> rfl

@[simp] theorem cell_flagged (c : Cell) : cell { c with quoted := isQuoted c } = cell c := by
  have same := isQuoted_flagged c false
  rw [Bool.or_false] at same
  rw [cell, ← isQuoted, same]
  rfl

theorem readBack_eq_map {r : Record} (several : r.length ≠ 1) :
    readBack r = r.map fun c => { c with quoted := isQuoted c } := by
  simp only [readBack, several, decide_false, Bool.and_false, Bool.or_false]

theorem row_eq_readBack (r : Record) : row r = cells (readBack r) ++ [Byte.lineFeed] := by
  match r with
  | [] => rfl
  | [c] =>
    have alone : readBack [c] = [{ c with quoted := isQuoted c || c.bytes.isEmpty }] := by
      rw [readBack, List.map_singleton, List.length_singleton, decide_eq_true rfl, Bool.and_true]
    rw [alone, row, cells_singleton, cells_singleton]
    cases shown : isQuoted c with
    | true =>
      have quotes : cell c = quoted c.bytes := if_pos shown
      rw [quotes]
      rfl
    | false =>
      have plain : cell c = c.bytes := if_neg (by rw [← isQuoted, shown]; exact Bool.false_ne_true)
      cases bytes : c.bytes with
      | nil =>
        rw [plain, bytes]
        rfl
      | cons b rest =>
        have kept := cell_flagged c
        rw [shown, plain, bytes] at kept
        rw [plain, bytes]
        exact congrArg (· ++ [Byte.lineFeed]) kept.symm
  | c :: d :: rest =>
    have several : (c :: d :: rest).length ≠ 1 := by simp
    have same : ∀ r : Record, cells (r.map fun c => { c with quoted := isQuoted c }) = cells r := by
      intro r
      rw [cells, cells, List.map_map]
      exact congrArg _ (List.map_congr_left fun c _ => cell_flagged c)
    rw [readBack_eq_map several, same, row, decide_eq_false several, Bool.false_and,
      if_neg Bool.false_ne_true]

theorem readBack_readBack (r : Record) :
    (readBack r).map (fun c => { c with quoted := isQuoted c }) = readBack r := by
  rw [readBack, List.map_map]
  apply List.map_congr_left
  intro c _
  simp only [Function.comp_apply, isQuoted_flagged]

theorem row_front (c : Cell) (more : Record) (rest : Bytes) :
    ∃ d b tail, row (c :: more) ++ rest = cell d ++ b :: tail ∧
      (b = Byte.comma ∨ b = Byte.lineFeed) ∧ d.bytes = c.bytes ∧
      (isQuoted c = true → isQuoted d = true) ∧ (cell d = [] → b = Byte.comma) := by
  refine ⟨{ c with quoted := isQuoted c || (c.bytes.isEmpty && (c :: more).length = 1) }, ?_⟩
  have front : row (c :: more) ++ rest = cells (readBack (c :: more)) ++ Byte.lineFeed :: rest := by
    rw [row_eq_readBack, List.append_assoc, List.singleton_append]
  rw [front, readBack, List.map_cons]
  cases more with
  | nil =>
    refine ⟨Byte.lineFeed, rest, by simp, Or.inr rfl, rfl, ?_, ?_⟩
    · intro quoted
      rw [isQuoted_flagged, quoted, Bool.true_or]
    · intro blank
      unfold cell at blank
      split at blank
      · cases blank
      · rename_i plain
        rw [← isQuoted, isQuoted_flagged] at plain
        simp [show c.bytes = [] from blank] at plain
  | cons d more =>
    rw [List.map_cons, cells_cons_cons, List.append_assoc, List.cons_append]
    refine ⟨Byte.comma, _, rfl, Or.inl rfl, rfl, ?_, fun _ => rfl⟩
    intro quoted
    rw [isQuoted_flagged, quoted, Bool.true_or]

theorem row_begins (c : Cell) (more : Record) (rest : Bytes) :
    ∃ b tail, row (c :: more) ++ rest = b :: tail ∧ Byte.isLineBreak b = false := by
  obtain ⟨d, b, tail, front, -, -, -, parted⟩ := row_front c more rest
  rcases text : cell d with _ | ⟨first, later⟩
  · rw [text, parted text] at front
    exact ⟨_, _, front, by decide⟩
  · rw [text] at front
    refine ⟨first, _, front, ?_⟩
    unfold cell at text
    split at text
    · obtain ⟨rfl, -⟩ := List.cons.inj text
      decide
    · rename_i plain
      have plain' : needsQuotes d.bytes = false := by
        rw [Bool.not_eq_true, Bool.or_eq_false_iff] at plain
        exact plain.2
      have more := (needsQuotes_eq_false plain' (by rw [text]; exact List.mem_cons_self)).2
      exact (Bool.or_eq_false_iff.mp more).2

/-! ## A table -/

theorem records_row (c : Cell) (more : Record) (rest : Bytes) :
    records Byte.comma (row (c :: more) ++ rest) =
      readBack (c :: more) :: records Byte.comma rest := by
  obtain ⟨b, tail, front, begun⟩ := row_begins c more rest
  rw [front, records_eq_cons _ _ (by simp) (by rintro x ⟨rfl⟩; exact begun), ← front,
    row_eq_readBack, List.append_assoc, List.singleton_append]
  rcases shown : readBack (c :: more) with _ | ⟨d, others⟩
  · rw [readBack] at shown
    cases shown
  · have same := readBack_readBack (c :: more)
    rw [shown] at same
    rw [record_written, same]

theorem records_rows {rows : List Record} (filled : ∀ r ∈ rows, r ≠ []) :
    records Byte.comma (rows.flatMap row) = rows.map readBack := by
  induction rows with
  | nil => exact records_nil _
  | cons r rest ih =>
    cases r with
    | nil => exact absurd rfl (filled [] List.mem_cons_self)
    | cons c more =>
      rw [List.flatMap_cons, records_row, ih fun r member => filled r (List.mem_cons_of_mem _ member)]
      rfl

/-- The first cell of a table is in quotes if it begins with the byte-order mark. -/
def MarkQuoted (rows : List Record) : Prop :=
  ∀ c, rows.head?.bind List.head? = some c → startsWithMark c.bytes = true → isQuoted c = true

theorem startsWithMark_append_cons (text : Bytes) {b : UInt8} (other : b ∉ byteOrderMark)
    (rest : Bytes) : startsWithMark (text ++ b :: rest) = startsWithMark text := by
  have apart : ∀ m ∈ byteOrderMark, (m == b) = false := fun m member =>
    beq_eq_false_iff_ne.mpr fun same => other (same ▸ member)
  have first := apart 0xEF (by decide)
  have second := apart 0xBB (by decide)
  have third := apart 0xBF (by decide)
  unfold startsWithMark
  match text with
  | [] =>
    rw [List.nil_append, byteOrderMark, List.isPrefixOf_cons_cons, first, Bool.false_and]
    rfl
  | [x] =>
    simp only [List.cons_append, List.nil_append, byteOrderMark, List.isPrefixOf_cons_cons, second,
      List.isPrefixOf_cons_nil, Bool.false_and]
  | [x, y] =>
    simp only [List.cons_append, List.nil_append, byteOrderMark, List.isPrefixOf_cons_cons, third,
      List.isPrefixOf_cons_nil, Bool.false_and]
  | x :: y :: z :: text =>
    simp only [List.cons_append, byteOrderMark, List.isPrefixOf_cons_cons, List.isPrefixOf_nil_left]

theorem rows_unmarked {rows : List Record} (filled : ∀ r ∈ rows, r ≠ [])
    (told : MarkQuoted rows) : startsWithMark (rows.flatMap row) = false := by
  rcases rows with _ | ⟨_ | ⟨c, more⟩, rest⟩
  · rfl
  · exact absurd rfl (filled [] List.mem_cons_self)
  · obtain ⟨d, b, tail, front, parts, bytes, quoted, -⟩ := row_front c more (rest.flatMap row)
    have other : b ∉ byteOrderMark := by rcases parts with rfl | rfl <;> decide
    rw [List.flatMap_cons, front, startsWithMark_append_cons _ other]
    by_contra marked
    rw [Bool.not_eq_false] at marked
    unfold cell at marked
    split at marked
    · cases marked
    · rename_i plain
      rw [bytes] at marked
      exact plain (quoted (told c rfl marked))

theorem rows_dropWhile {rows : List Record} (filled : ∀ r ∈ rows, r ≠ []) :
    (rows.flatMap row).dropWhile Byte.isLineBreak = rows.flatMap row := by
  rcases rows with _ | ⟨_ | ⟨c, more⟩, rest⟩
  · rfl
  · exact absurd rfl (filled [] List.mem_cons_self)
  · obtain ⟨b, tail, front, begun⟩ := row_begins c more (rest.flatMap row)
    rw [List.flatMap_cons, front, List.dropWhile_cons_of_neg (by simp [begun])]

theorem withoutMark_table (withMark : Bool) {rows : List Record} (filled : ∀ r ∈ rows, r ≠ [])
    (told : MarkQuoted rows) : withoutMark (table withMark rows) = rows.flatMap row := by
  cases withMark with
  | true => rfl
  | false =>
    rw [table, if_neg Bool.false_ne_true, List.nil_append, withoutMark, rows_unmarked filled told,
      if_neg Bool.false_ne_true]

theorem reference_table (withMark : Bool) {rows : List Record} (filled : ∀ r ∈ rows, r ≠ [])
    (told : MarkQuoted rows) : reference Byte.comma (table withMark rows) = rows.map readBack := by
  rw [reference, withoutMark_table withMark filled told, records_rows filled]

theorem singleMark_table (withMark : Bool) {rows : List Record} (filled : ∀ r ∈ rows, r ≠ [])
    (told : MarkQuoted rows) : SingleMark (table withMark rows) := by
  rw [SingleMark, withoutMark_table withMark filled told, rows_dropWhile filled]
  exact rows_unmarked filled told

end Encoding

theorem Options.Fits.readBack {options : Options} {r : Record} (fits : options.Fits r) :
    options.Fits (Encoding.readBack r) := by
  obtain ⟨narrow, small⟩ := fits
  refine ⟨?_, ?_⟩
  · rw [Encoding.readBack, List.length_map]
    exact narrow
  · rw [Encoding.readBack, recordSize, List.map_map]
    exact small

/-! ## Writing a table -/

namespace Writer

def putCells (w : Writer) : Record → Except Error Unit × Writer
  | [] => (.ok (), w)
  | c :: rest =>
    match w.cell c.bytes c.quoted with
    | (.error error, w) => (.error error, w)
    | (.ok (), w) => w.putCells rest

def putRow (w : Writer) (r : Record) : Except Error Unit × Writer :=
  match w.putCells r with
  | (.error error, w) => (.error error, w)
  | (.ok (), w) => w.endRow

def putRows (w : Writer) : List Record → Except Error Unit × Writer
  | [] => (.ok (), w)
  | r :: rest =>
    match w.putRow r with
    | (.error error, w) => (.error error, w)
    | (.ok (), w) => w.putRows rest

def putTable (out : Output) (withMark : Bool) (scratch : Scratch) (rows : List Record) :
    Except Error Unit × Writer :=
  match Writer.new out withMark scratch with
  | (.error error, w) => (.error error, w)
  | (.ok (), w) => w.putRows rows

theorem putCells_writes (r : Record) {w : Writer} (clean : Clean w)
    (room : w.out.HasRoom (laidOut w.cells r)) :
    w.putCells r = (.ok (), { w with
      out := w.out.extended (laidOut w.cells r)
      cells := w.cells + r.length
      rowBytes := w.rowBytes + rowSize r }) := by
  induction r generalizing w with
  | nil =>
    rw [putCells, laidOut, Output.extended_nil]
    rfl
  | cons c rest ih =>
    rw [laidOut] at room
    have first := cell_writes clean c.bytes c.quoted room.left
    have others := ih (w := { w with
      out := w.out.extended (parting w.cells ++ Encoding.cell c)
      cells := w.cells + 1
      rowBytes := w.rowBytes + (Encoding.cell c).length }) ⟨clean.necessary, clean.always⟩ room.right
    rw [putCells, first]
    dsimp only
    rw [others, laidOut, Output.extended_extended, List.length_cons, rowSize, rowSize,
      List.map_cons, List.sum_cons, Nat.add_assoc, Nat.add_assoc, Nat.add_comm 1]

structure AtRow (w : Writer) : Prop extends Clean w where
  cells : w.cells = 0
  rowBytes : w.rowBytes = 0

theorem putRow_writes {w : Writer} (atRow : AtRow w) (r : Record)
    (room : w.out.HasRoom (Encoding.row r)) :
    w.putRow r = (.ok (), { w with out := w.out.extended (Encoding.row r) }) := by
  have text : Encoding.row r = laidOut w.cells r ++ (filling r ++ [Byte.lineFeed]) := by
    rw [atRow.cells, laidOut_eq, row_eq]
  rw [text] at room ⊢
  have behind : Behind { w with
      out := w.out.extended (laidOut w.cells r)
      cells := w.cells + r.length
      rowBytes := w.rowBytes + rowSize r } r := by
    constructor
    · rw [atRow.cells, Nat.zero_add]
    · rw [atRow.rowBytes, Nat.zero_add]
  rw [putRow, putCells_writes r atRow.toClean room.left]
  dsimp only
  rw [endRow_writes behind room.right]
  simp [atRow.cells, atRow.rowBytes]

theorem putRows_writes (rows : List Record) {w : Writer} (atRow : AtRow w)
    (room : w.out.HasRoom (rows.flatMap Encoding.row)) :
    w.putRows rows = (.ok (), { w with out := w.out.extended (rows.flatMap Encoding.row) }) := by
  induction rows generalizing w with
  | nil =>
    simp [putRows]
  | cons r rest ih =>
    rw [List.flatMap_cons] at room ⊢
    have others := ih (w := { w with out := w.out.extended (Encoding.row r) })
      ⟨⟨atRow.necessary, atRow.always⟩, atRow.cells, atRow.rowBytes⟩ room.right
    rw [putRows, putRow_writes atRow r room.left]
    dsimp only
    simp [others]

theorem putTable_writes {out : Output} {withMark : Bool} {rows : List Record}
    (room : out.HasRoom (Encoding.table withMark rows)) (scratch : Scratch) :
    putTable out withMark scratch rows =
      (.ok (), { out := out.extended (Encoding.table withMark rows), scratch }) := by
  have opened : Writer.new out withMark scratch = (.ok (),
      { out := out.extended (if withMark then byteOrderMark else []), scratch }) := by
    have front := room.left
    unfold Writer.new
    cases withMark with
    | false => simp
    | true => exact put_of_room front
  rw [putTable, opened]
  dsimp only
  rw [putRows_writes rows ⟨⟨rfl, rfl⟩, rfl, rfl⟩ room.right, Output.extended_extended,
    Encoding.table]

end Writer

/-- A table that is written to an empty output reads back, whatever its cells hold: each cell has
its bytes, and is marked as quoted if it had to or was to be written in quotes. A first cell that
begins with the byte-order mark and is not in quotes is the one thing that does not. -/
theorem written_table_reads_back (rows : List Record) (filled : ∀ r ∈ rows, r ≠ [])
    (withMark : Bool) (told : Encoding.MarkQuoted rows) (scratch : Scratch) (out : Output)
    (empty : out.bytes = []) (room : out.HasRoom (Encoding.table withMark rows))
    (reads : List ReadEvent) (steady : ∀ event ∈ reads, event.isSteady = true) (options : Options)
    (allowed : options.Allowed) (parted : options.delimiter = Byte.comma)
    (fits : ∀ r ∈ rows, options.Fits r) :
    ∃ w, Writer.putTable out withMark scratch rows = (.ok (), w) ∧
      ∃ p delivered, Parser.new (Source.ofBytes w.out.bytes reads) options = .ok p ∧
        delivered.map Row.cells = rows.map Encoding.readBack ∧
        delivered.map Row.number = List.range' 1 rows.length ∧
        ∀ (β : Type) (handler : RowHandler β) (s : β), ∃ q,
          p.drain handler s = ((feed handler delivered s).1, q, (feed handler delivered s).2) ∧
            ((feed handler delivered s).1 = .ok () → q.status = .finished) := by
  refine ⟨_, Writer.putTable_writes room scratch, ?_⟩
  have text : (out.extended (Encoding.table withMark rows)).bytes =
      Encoding.table withMark rows := by
    simp [empty]
  rw [text]
  have records : reference options.delimiter (Encoding.table withMark rows) =
      rows.map Encoding.readBack := by
    rw [parted]
    exact Encoding.reference_table withMark filled told
  have fits' : ∀ r ∈ reference options.delimiter (Encoding.table withMark rows),
      options.Fits r := by
    intro r member
    rw [records] at member
    obtain ⟨raw, among, rfl⟩ := List.mem_map.mp member
    exact (fits raw among).readBack
  obtain ⟨delivered, deliver, run⟩ := Parser.initial_reads
    (Source.ofBytes (Encoding.table withMark rows) reads) steady allowed
    (Encoding.singleMark_table withMark filled told) fits'
  have delivers : Deliver 0 (rows.map Encoding.readBack) delivered := by
    rw [← records]
    exact deliver
  refine ⟨_, delivered, Parser.new_eq_initial _ allowed, delivers.cells, ?_, run⟩
  rw [delivers.numbers, List.length_map]

/-- A row of one empty cell, a marked cell behind it, and quotes and line breaks inside a cell, of
which three bytes pass the scratch at once and one is read at a time. -/
theorem written_quotes_read_back :
    let rows : List Record := [[⟨[], false⟩], [⟨[34, 13, 10, 44], false⟩, ⟨[], false⟩],
      [⟨[0xEF, 0xBB, 0xBF], true⟩, ⟨[97], false⟩]]
    let options : Options := { bufferSize := 5, maxColumns := 2, readChunk := 1 }
    ∃ w, Writer.putTable {} true { size := 3 } rows = (.ok (), w) ∧
      ∃ p delivered, Parser.new (Source.ofBytes w.out.bytes [.interrupted]) options = .ok p ∧
        delivered.map Row.cells = [[⟨[], true⟩], [⟨[34, 13, 10, 44], true⟩, ⟨[], false⟩],
          [⟨[0xEF, 0xBB, 0xBF], true⟩, ⟨[97], false⟩]] ∧
        delivered.map Row.number = [1, 2, 3] ∧
        ∀ (β : Type) (handler : RowHandler β) (s : β), ∃ q,
          p.drain handler s = ((feed handler delivered s).1, q, (feed handler delivered s).2) ∧
            ((feed handler delivered s).1 = .ok () → q.status = .finished) := by
  intro rows options
  have told : Encoding.MarkQuoted rows := by
    intro c first marked
    cases first
    exact absurd marked (by decide)
  exact written_table_reads_back rows (by decide) true told { size := 3 } {} rfl
    (fun room limit => by cases limit) [.interrupted] (by decide) options
    ⟨rfl, by decide, by decide⟩ rfl (by decide)

end Tabular.Csv
