import Mathlib.Algebra.GroupWithZero.Nat
import Mathlib.Data.List.DropRight
import Tabular.Proofs.Csv.CellInParts
import Tabular.Proofs.Csv.RowMemory

/-!
The record in hand. Between two moves of a parse a record may have been read in part: some of its
cells are finished and one may be open. Together with the text still to come that makes a whole
record, the one the grammar finds when it is given all of the text at once.
-/
namespace Tabular.Csv

namespace Grammar

/-- The rest of a record of which a cell has just been read, and what follows the record. -/
def closeCell (delimiter : UInt8) (c : Cell) : Bytes → Record × Bytes
  | [] => ([c], [])
  | b :: rest =>
      if b = delimiter then (c :: (record delimiter rest).1, (record delimiter rest).2)
      else ([c], rest)

theorem record_eq (delimiter : UInt8) (text : Bytes) :
    record delimiter text = closeCell delimiter (cell delimiter text).1 (cell delimiter text).2 := by
  rw [record]
  rcases cell delimiter text with ⟨c, _ | ⟨b, rest⟩⟩ <;> rfl

@[simp] theorem records_dropWhile (delimiter : UInt8) (text : Bytes) :
    records delimiter (text.dropWhile Byte.isLineBreak) = records delimiter text := by
  rw [records, records.eq_def delimiter text, List.dropWhile_idempotent Byte.isLineBreak text]

theorem records_of_blank (delimiter : UInt8) (text : Bytes)
    (blank : text.dropWhile Byte.isLineBreak = []) : records delimiter text = [] := by
  rw [records, blank]
  rfl

@[simp] theorem records_nil (delimiter : UInt8) : records delimiter [] = [] :=
  records_of_blank delimiter [] rfl

theorem records_eq_cons (delimiter : UInt8) (text : Bytes) (something : text ≠ [])
    (begun : ∀ b, text.head? = some b → Byte.isLineBreak b = false) :
    records delimiter text =
      (record delimiter text).1 :: records delimiter (record delimiter text).2 := by
  have front : text.dropWhile Byte.isLineBreak = text := by
    cases text with
    | nil => rfl
    | cons b rest => rw [List.dropWhile_cons_of_neg (by simp [begun b rfl])]
  rw [records, front]
  simp only [something, ↓reduceDIte]

theorem closeCell_ne_nil (delimiter : UInt8) (c : Cell) (text : Bytes) :
    (closeCell delimiter c text).1 ≠ [] := by
  unfold closeCell
  split
  · exact List.cons_ne_nil _ _
  · split <;> exact List.cons_ne_nil _ _

theorem records_filled (delimiter : UInt8) (text : Bytes) :
    ∀ r ∈ records delimiter text, r ≠ [] := by
  fun_induction records delimiter text with
  | case1 text front empty => exact fun r none => absurd none List.not_mem_nil
  | case2 text front nonempty first ih =>
    intro r member
    rcases List.mem_cons.mp member with rfl | later
    · rw [show first = record delimiter front from rfl, record_eq]
      exact closeCell_ne_nil _ _ _
    · exact ih r later

theorem records_length_le (delimiter : UInt8) (text : Bytes) :
    (records delimiter text).length ≤ text.length := by
  fun_induction records delimiter text with
  | case1 text front empty => exact Nat.zero_le _
  | case2 text front some first ih =>
    have shorter := record_length_lt delimiter front some
    have front_le : front.length ≤ text.length := (List.dropWhile_suffix _).length_le
    rw [List.length_cons]
    exact Nat.le_trans (Nat.lt_of_le_of_lt ih shorter) front_le

end Grammar

/-- How many bytes the cells of a record have, unquoted. -/
def recordSize (r : Record) : Nat := (r.map fun c => c.bytes.length).sum

@[simp] theorem recordSize_append (first second : Record) :
    recordSize (first ++ second) = recordSize first + recordSize second := by
  simp only [recordSize, List.map_append, List.sum_append]

def textSize (rs : List Record) : Nat := (rs.map recordSize).sum

@[simp] theorem textSize_nil : textSize [] = 0 := rfl

@[simp] theorem textSize_cons (r : Record) (rs : List Record) :
    textSize (r :: rs) = recordSize r + textSize rs := by
  rw [textSize, List.map_cons, List.sum_cons, textSize]

theorem size_le_recordSize_closeCell (delimiter : UInt8) (c : Cell) (text : Bytes) :
    c.bytes.length ≤ recordSize (Grammar.closeCell delimiter c text).1 := by
  unfold Grammar.closeCell
  split
  · simp [recordSize]
  · split <;> simp [recordSize]

namespace Parser

def doneCells (p : Parser) : Record := p.completedRow.cells

def openText (p : Parser) : Bytes := p.buffer.live.toList.drop p.fieldStart

/-- The record in hand as `text` completes it, and what follows it. -/
def completion (p : Parser) (text : Bytes) : Record × Bytes :=
  let delimiter := p.tokenizer.delimiter
  let rest :=
    if p.fieldOpen then
      let more := Grammar.resume delimiter p.tokenizer.state text
      Grammar.closeCell delimiter { bytes := p.openText ++ more.1, quoted := p.quoted } more.2
    else Grammar.record delimiter text
  (p.doneCells ++ rest.1, rest.2)

def resumed (p : Parser) (text : Bytes) : List Record :=
  (p.completion text).1 :: Grammar.records p.tokenizer.delimiter (p.completion text).2

def hasRecord (p : Parser) : Bool := !p.spans.isEmpty || p.tokenizer.state.isWithinCell

/-- The records still to be completed when `text` is still to come. -/
def ahead (p : Parser) (text : Bytes) : List Record :=
  if p.hasRecord then
    (p.completion text).1 :: Grammar.records p.tokenizer.delimiter (p.completion text).2
  else Grammar.records p.tokenizer.delimiter text

theorem doneCells_eq (p : Parser) :
    p.doneCells = p.spans.toList.map fun span =>
      { bytes := span.bytesIn p.buffer.live, quoted := span.quoted } := rfl

theorem Layout.recordSize_doneCells {p : Parser} (layout : Layout p) :
    p.rowStart + recordSize p.doneCells = p.fieldStart := by
  have total : ∀ (spans : List CellSpan) (start : Nat), Tiles start spans p.fieldStart →
      start + (spans.map fun span => (span.bytesIn p.buffer.live).length).sum = p.fieldStart := by
    intro spans
    induction spans with
    | nil =>
      intro start tiles
      exact tiles
    | cons span rest ih =>
      intro start tiles
      have inside : span.stop ≤ p.buffer.live.size :=
        Nat.le_trans tiles.2.le layout.fieldStart_le
      have offset := tiles.1
      have later := ih span.stop tiles.2
      rw [List.map_cons, List.sum_cons, span.bytesIn_length _ inside]
      unfold CellSpan.stop at later
      omega
  have whole := total p.spans.toList p.rowStart layout.tiles
  rw [doneCells_eq, recordSize, List.map_map]
  exact whole

theorem Layout.length_openText {p : Parser} (layout : Layout p) :
    p.fieldStart + p.openText.length = p.buffer.live.size := by
  rw [openText, List.length_drop, Array.length_toList]
  have inside := layout.fieldStart_le
  omega

theorem doneCells_of_grown {p q : Parser} (layout : Layout p) (spans : q.spans = p.spans)
    (grows : p.buffer.live.toList <+: q.buffer.live.toList) : q.doneCells = p.doneCells := by
  rw [doneCells_eq, doneCells_eq, spans]
  apply List.map_congr_left
  intro span member
  rw [span.bytesIn_of_prefix grows (layout.span_le member)]

theorem openText_of_grown {p q : Parser} (layout : Layout p) {kept : Bytes}
    (fieldStart : q.fieldStart = p.fieldStart)
    (grown : q.buffer.live.toList = p.buffer.live.toList ++ kept) :
    q.openText = p.openText ++ kept := by
  have inside := layout.fieldStart_le
  rw [← Array.length_toList] at inside
  rw [openText, openText, grown, fieldStart, List.drop_append_of_le_length inside]

/-! ## The state between two moves -/

/-- Where the tokenizer stands fits what is in hand: within a cell if one is open, behind a cell
if some are finished, and otherwise between two records. -/
structure Coherent (p : Parser) : Prop extends Layout p where
  opened : p.fieldOpen = true → p.tokenizer.state.isWithinCell = true
  closed : p.fieldOpen = false → p.fieldStart = p.buffer.live.size
  behindCell : p.fieldOpen = false → p.spans.isEmpty = false → p.tokenizer.state = .fieldEnd
  betweenRecords : p.fieldOpen = false → p.spans.isEmpty = true →
    p.tokenizer.state.isBetweenRecords = true
  started : p.tokenizer.started = false → p.hasRecord = false

theorem ahead_of_hasRecord {p : Parser} (has : p.hasRecord = true) (text : Bytes) :
    p.ahead text = p.resumed text := by
  rw [ahead, if_pos has, resumed]

theorem ahead_of_noRecord {p : Parser} (none : p.hasRecord = false) (text : Bytes) :
    p.ahead text = Grammar.records p.tokenizer.delimiter text := by
  rw [ahead, if_neg (by simp [none])]

theorem size_le_completion {p : Parser} (layout : Layout p) (opened : p.fieldOpen = true)
    (text : Bytes) : p.buffer.live.size ≤ p.rowStart + recordSize (p.completion text).1 := by
  have done := layout.recordSize_doneCells
  have inCell := layout.length_openText
  have last := size_le_recordSize_closeCell p.tokenizer.delimiter
    { bytes := p.openText ++ (Grammar.resume p.tokenizer.delimiter p.tokenizer.state text).1,
      quoted := p.quoted }
    (Grammar.resume p.tokenizer.delimiter p.tokenizer.state text).2
  rw [List.length_append] at last
  rw [completion, opened, if_pos rfl, recordSize_append]
  dsimp only
  omega

theorem completion_of_resume {p : Parser} (layout : Layout p) (opened : p.fieldOpen = true)
    {text before : Bytes}
    (reading : Grammar.resume p.tokenizer.delimiter p.tokenizer.state text = (before, [])) :
    p.rowStart + recordSize (p.completion text).1 = p.buffer.live.size + before.length ∧
      (p.completion text).2 = [] := by
  have done := layout.recordSize_doneCells
  have inCell := layout.length_openText
  rw [completion, opened, if_pos rfl, reading, recordSize_append]
  refine ⟨?_, rfl⟩
  simp only [Grammar.closeCell, recordSize, List.map_cons, List.map_nil, List.sum_cons,
    List.sum_nil, List.length_append] at done ⊢
  omega

theorem Coherent.size_le_ahead {p : Parser} (coherent : Coherent p) (text : Bytes) :
    p.buffer.live.size ≤ p.rowStart + textSize (p.ahead text) := by
  have done := coherent.recordSize_doneCells
  cases opened : p.fieldOpen with
  | true =>
    have has : p.hasRecord = true := by rw [hasRecord, coherent.opened opened, Bool.or_true]
    have large := size_le_completion coherent.toLayout opened text
    rw [ahead_of_hasRecord has, resumed, textSize_cons]
    omega
  | false =>
    rw [coherent.closed opened] at done
    by_cases has : p.hasRecord = true
    · rw [ahead_of_hasRecord has, resumed, textSize_cons, completion, opened, if_neg Bool.false_ne_true,
        recordSize_append]
      dsimp only
      omega
    · have noCells : p.doneCells = [] := by
        have first : p.spans.isEmpty = true := by
          rw [hasRecord, Bool.or_eq_true, not_or] at has
          simpa using has.1
        rw [doneCells_eq, Array.isEmpty_iff.mp first]
        rfl
      rw [noCells] at done
      simp only [recordSize, List.map_nil, List.sum_nil] at done
      omega

/-- When nothing more comes the record in hand is what lies in the memory. -/
theorem Coherent.size_ahead_nil {p : Parser} (coherent : Coherent p) :
    p.rowStart + textSize (p.ahead []) = p.buffer.live.size := by
  have done := coherent.recordSize_doneCells
  have large := coherent.size_le_ahead []
  by_cases has : p.hasRecord = true
  · have rest : (p.completion []).2 = [] ∧
        p.rowStart + recordSize (p.completion []).1 ≤ p.buffer.live.size := by
      cases opened : p.fieldOpen with
      | true =>
        obtain ⟨size, rest⟩ :=
          completion_of_resume coherent.toLayout opened (Grammar.resume_nil _ _)
        exact ⟨rest, Nat.le_of_eq size⟩
      | false =>
        rw [coherent.closed opened] at done
        rw [completion, opened, if_neg Bool.false_ne_true, Grammar.record_eq, recordSize_append]
        refine ⟨rfl, ?_⟩
        simp only [Grammar.closeCell, Grammar.cell, recordSize, List.map_cons, List.map_nil,
          List.sum_cons, List.sum_nil, List.length_nil] at done ⊢
        omega
    rw [ahead_of_hasRecord has, resumed, rest.1, Grammar.records_nil, textSize_cons,
      textSize_nil] at large ⊢
    omega
  · rw [ahead_of_noRecord (Bool.eq_false_iff.mpr has), Grammar.records_nil] at large ⊢
    rw [textSize_nil] at large ⊢
    have fieldStart := coherent.tiles.le
    have inside := coherent.fieldStart_le
    omega

/-- If the tokenizer has had nothing yet, the text that comes does not begin with a byte-order
mark that it would take for one. -/
def Unmarked (p : Parser) (text : Bytes) : Prop :=
  p.tokenizer.started = false → startsWithMark (text.dropWhile Byte.isLineBreak) = false

end Parser

end Tabular.Csv
