import Tabular.Csv.Options
import Tabular.Csv.Row
import Tabular.Csv.Tokenizer
import Tabular.Csv.Window

/-!
An incremental parser. It reads its source in pieces, assembles one record at a time in a row
buffer of fixed size and hands it to a handler. Every step starts a new generation, in which
the spans of earlier steps mean nothing any more.
-/
namespace Tabular.Csv

inductive ParserStatus where
  | ready
  | exhausted
  | finished
  | failed (description : String)
  deriving DecidableEq, Repr, Inhabited

structure Parser where
  source : Source
  options : Options
  tokenizer : Tokenizer
  window : Window
  buffer : RowBuffer
  /-- Where the text of the record in hand begins. -/
  rowStart : Nat := 0
  /-- Where the text of the cell in hand begins. -/
  fieldStart : Nat := 0
  /-- The tokenizer has been asked for the cell in hand. -/
  fieldOpen : Bool := false
  /-- The cell in hand opened with a quote. -/
  quoted : Bool := false
  /-- The finished cells of the record in hand. -/
  spans : Array CellSpan := #[]
  generation : Nat := 0
  /-- Records completed so far. -/
  rows : Nat := 0
  markChecked : Bool := false
  /-- The source has no more bytes. -/
  atEnd : Bool := false
  status : ParserStatus := .ready
  deriving Repr, Inhabited

/-- Takes each completed record in turn. A refused record ends the step. -/
abbrev RowHandler (β : Type) := Row → β → Except Error Unit × β

inductive StepOutcome where
  | row
  | noMoreInput
  deriving DecidableEq, Repr

inductive Progress where
  | field
  | row
  | needInput
  | dataEnd
  deriving DecidableEq, Repr

namespace Parser

/-- A parser at the start of a source. Its window holds a byte-order mark even if less is read
at once. -/
def new (source : Source) (options : Options) : Except Error Parser :=
  let windowSize := max options.readChunk byteOrderMark.length
  if !options.isUsable then .error (.internal "parser options must be non-zero")
  else if largestBuffer < windowSize || largestBuffer < options.bufferSize then .error .outOfMemory
  else .ok {
    source, options
    tokenizer := { delimiter := options.delimiter }
    window := { capacity := windowSize }
    buffer := { capacity := options.bufferSize } }

def resolve (p : Parser) (span : CellSpan) (generation : Nat) : Except Error Bytes :=
  if generation ≠ p.generation then .error (.staleCell generation p.generation)
  else match p.buffer.get? span with
    | some bytes => .ok bytes
    | none => .error (.internal "cell span outside parser buffer")

def statusDescription (p : Parser) : String :=
  match p.status with
  | .ready => "ok"
  | .exhausted => "no more input"
  | .finished => "finished"
  | .failed description => description

/-- Start a new generation: the record in hand moves to the front of the row buffer. -/
def beginGeneration (p : Parser) : Parser :=
  let start := p.rowStart
  { p with
    generation := p.generation + 1
    buffer := p.buffer.shift start
    rowStart := 0
    fieldStart := p.fieldStart - start
    spans := p.spans.map fun span => { span with offset := span.offset - start } }

@[simp] theorem beginGeneration_source (p : Parser) : p.beginGeneration.source = p.source := rfl

@[simp] theorem beginGeneration_options (p : Parser) : p.beginGeneration.options = p.options := rfl

@[simp] theorem beginGeneration_tokenizer (p : Parser) :
    p.beginGeneration.tokenizer = p.tokenizer := rfl

@[simp] theorem beginGeneration_buffer_capacity (p : Parser) :
    p.beginGeneration.buffer.capacity = p.buffer.capacity := p.buffer.shift_capacity p.rowStart

@[simp] theorem beginGeneration_rowStart (p : Parser) : p.beginGeneration.rowStart = 0 := rfl

@[simp] theorem beginGeneration_generation (p : Parser) :
    p.beginGeneration.generation = p.generation + 1 := rfl

@[simp] theorem beginGeneration_spans_size (p : Parser) :
    p.beginGeneration.spans.size = p.spans.size := Array.size_map

@[simp] theorem beginGeneration_markChecked (p : Parser) :
    p.beginGeneration.markChecked = p.markChecked := rfl

def fill (p : Parser) : Except Error Unit × Parser :=
  match p.window.refill p.source p.options.readChunk with
  | (.error error, window, source) => (.error error, { p with window, source })
  | (.ok exhausted, window, source) =>
      (.ok (), { p with window, source, atEnd := p.atEnd || exhausted })

/-- The mark has been looked for. It counts only in front of the first record. -/
def skipMark (p : Parser) : Parser :=
  { p with
    markChecked := true
    window := if p.rows = 0 then p.window.skipMark else p.window }

/-- Line breaks in front of a record are left out. Within a record they end it. -/
def skipBlankLines (p : Parser) : Parser :=
  { p with window := if p.spans.isEmpty then p.window.skipLineBreaks else p.window }

/-- Begin a cell if none is open. Nothing can be begun on an empty window while more input may
come and no record is in hand. -/
def openCell (p : Parser) (atEnd : Bool) : Bool × Parser :=
  if p.fieldOpen then (true, p)
  else
    let p := p.skipBlankLines
    if p.spans.isEmpty && p.window.pending.isEmpty && !atEnd then (false, p)
    else (true, { p with
      quoted := p.window.pending.head? == some Byte.quote
      fieldOpen := true })

def endCell (p : Parser) : Except Error Unit × Parser :=
  if p.spans.size ≥ p.options.maxColumns then
    (.error (.tooManyColumns (p.rows + 1) p.options.maxColumns), p)
  else
    let stop := p.buffer.live.size
    let span := { offset := p.fieldStart, length := stop - p.fieldStart, quoted := p.quoted }
    (.ok (), { p with
      spans := p.spans.push span
      fieldStart := stop
      fieldOpen := false
      quoted := false })

def tokenize (p : Parser) : FieldResult × Parser :=
  let live := p.buffer.live
  let size := live.size
  let p := { p with buffer.live := #[] }
  let reading := p.tokenizer.readField p.window.pending p.buffer.capacity live
  (reading.result, { p with
    tokenizer := reading.tokenizer
    window.pending := reading.rest
    buffer := p.buffer.extended reading.out (reading.out.size - size) })

/-- Take the open cell as far as the waiting input allows. When no input waits the tokenizer
takes it for the end of the data and closes the record in hand. -/
def advance (p : Parser) (atEnd : Bool) : Except Error Progress × Parser :=
  match p.openCell atEnd with
  | (false, p) => (.ok .needInput, p)
  | (true, p) =>
    match p.tokenize with
    | (.inputUsed, p) => (.ok .needInput, p)
    | (.noRoom, p) => (.error (.rowTooLarge (p.rows + 1) p.buffer.capacity), p)
    | (.dataEnd, p) => (.ok .dataEnd, p)
    | (.field endsRecord, p) =>
      match p.endCell with
      | (.error error, p) => (.error error, p)
      | (.ok (), p) => (.ok (if endsRecord then .row else .field), p)

end Parser

end Tabular.Csv
