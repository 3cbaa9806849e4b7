import Tabular.Proofs.Csv.Moves

/-!
The memory in which a record is assembled. Its cells lie in it side by side from the start of the
record to the start of the cell in hand, and no move of a parse touches the text that is there
already: moves only write behind it.
-/
namespace Tabular.Csv

/-! ## Cells side by side -/

def Tiles : Nat → List CellSpan → Nat → Prop
  | start, [], stop => start = stop
  | start, span :: rest, stop => span.offset = start ∧ Tiles span.stop rest stop

theorem Tiles.le {start stop : Nat} {spans : List CellSpan} (tiles : Tiles start spans stop) :
    start ≤ stop := by
  induction spans generalizing start with
  | nil => exact Nat.le_of_eq tiles
  | cons span rest ih =>
    have behind := ih tiles.2
    have first := tiles.1
    unfold CellSpan.stop at behind
    omega

theorem Tiles.inside {start stop : Nat} {spans : List CellSpan} (tiles : Tiles start spans stop)
    {span : CellSpan} (member : span ∈ spans) : start ≤ span.offset ∧ span.stop ≤ stop := by
  induction spans generalizing start with
  | nil => cases member
  | cons first rest ih =>
    rcases List.mem_cons.mp member with same | later
    · subst same
      exact ⟨Nat.le_of_eq tiles.1.symm, tiles.2.le⟩
    · obtain ⟨lower, upper⟩ := ih tiles.2 later
      have offset := tiles.1
      unfold CellSpan.stop at lower
      exact ⟨by omega, upper⟩

theorem Tiles.push {start middle : Nat} {spans : List CellSpan} (tiles : Tiles start spans middle)
    (span : CellSpan) (next : span.offset = middle) : Tiles start (spans ++ [span]) span.stop := by
  induction spans generalizing start with
  | nil => exact ⟨next.trans tiles.symm, rfl⟩
  | cons first rest ih => exact ⟨tiles.1, ih tiles.2⟩

theorem Tiles.shift {start stop : Nat} {spans : List CellSpan} (tiles : Tiles start spans stop)
    (distance : Nat) (behind : distance ≤ start) :
    Tiles (start - distance) (spans.map fun span => { span with offset := span.offset - distance })
      (stop - distance) := by
  induction spans generalizing start with
  | nil =>
    have same : start = stop := tiles
    rw [same]
    rfl
  | cons span rest ih =>
    have offset := tiles.1
    have stops : span.offset - distance + span.length = span.stop - distance := by
      unfold CellSpan.stop
      omega
    refine ⟨by simp only [offset], ?_⟩
    have later := ih tiles.2 (by unfold CellSpan.stop; omega)
    simp only [CellSpan.stop] at stops later ⊢
    rw [stops]
    exact later

/-! ## The text of a span -/

def CellSpan.bytesIn (span : CellSpan) (text : Array UInt8) : Bytes :=
  (text.extract span.offset span.stop).toList

theorem CellSpan.bytesIn_eq (span : CellSpan) (text : Array UInt8) :
    span.bytesIn text = (text.toList.drop span.offset).take span.length := by
  rw [bytesIn, Array.toList_extract, List.extract_eq_take_drop, CellSpan.stop,
    Nat.add_sub_cancel_left]

theorem CellSpan.bytesIn_length (span : CellSpan) (text : Array UInt8)
    (inside : span.stop ≤ text.size) : (span.bytesIn text).length = span.length := by
  rw [bytesIn_eq, List.length_take, List.length_drop, Array.length_toList]
  unfold CellSpan.stop at inside
  omega

theorem CellSpan.bytesIn_of_prefix (span : CellSpan) {text grown : Array UInt8}
    (grows : text.toList <+: grown.toList) (inside : span.stop ≤ text.size) :
    span.bytesIn grown = span.bytesIn text := by
  obtain ⟨added, same⟩ := grows
  unfold CellSpan.stop at inside
  rw [← Array.length_toList] at inside
  rw [bytesIn_eq, bytesIn_eq, ← same, List.drop_append_of_le_length (by omega),
    List.take_append_of_le_length (by rw [List.length_drop]; omega)]

theorem RowBuffer.get?_live (b : RowBuffer) (span : CellSpan) (inside : span.stop ≤ b.live.size)
    (fits : b.live.size ≤ b.capacity) : b.get? span = some (span.bytesIn b.live) := by
  have whole := span.bytesIn_length b.live inside
  unfold CellSpan.bytesIn at whole
  simp only [CellSpan.stop] at whole inside
  simp only [get?, CellSpan.stop, read, CellSpan.bytesIn, whole, Nat.sub_self, List.take_zero,
    List.length_nil, List.replicate_zero, List.append_nil, if_pos (Nat.le_trans inside fits)]

/-! ## Growth -/

theorem scan_grows (delimiter : UInt8) (capacity : Nat) (state : TokenState) (input : Bytes)
    (out : Array UInt8) :
    out.toList <+: (scan delimiter capacity state input out).out.toList ∧
      (out.size ≤ capacity → (scan delimiter capacity state input out).out.size ≤ capacity) := by
  induction input generalizing state out with
  | nil => exact ⟨List.prefix_rfl, id⟩
  | cons b rest ih =>
    unfold scan
    by_cases room : out.size < capacity
    · rw [if_pos room]
      rcases state.step delimiter b with ⟨next, keep⟩
      have pushed : out.toList <+: (if keep then out.push b else out).toList ∧
          (if keep then out.push b else out).size ≤ capacity := by
        cases keep with
        | false => exact ⟨List.prefix_rfl, Nat.le_of_lt room⟩
        | true => exact ⟨by simp, by simpa using Nat.succ_le_of_lt room⟩
      dsimp only
      by_cases final : next.isFinal = true
      · rw [if_pos final]
        exact ⟨pushed.1, fun _ => pushed.2⟩
      · rw [if_neg final]
        obtain ⟨grows, bounded⟩ := ih next (if keep then out.push b else out)
        exact ⟨pushed.1.trans grows, fun _ => bounded pushed.2⟩
    · rw [if_neg room]
      exact ⟨List.prefix_rfl, id⟩

theorem Tokenizer.readField_grows (t : Tokenizer) (input : Bytes) (capacity : Nat)
    (out : Array UInt8) :
    out.toList <+: (t.readField input capacity out).out.toList ∧
      (out.size ≤ capacity → (t.readField input capacity out).out.size ≤ capacity) := by
  unfold readField
  dsimp only
  split
  · split <;> exact ⟨List.prefix_rfl, id⟩
  · split
    · exact scan_grows ..
    · exact ⟨List.prefix_rfl, id⟩

end Tabular.Csv

namespace Tabular.Source

theorem readBy_keeps (s : Source) (count : Nat) (events : List ReadEvent) :
    (s.readBy count events).2.content = s.content ∧ (s.readBy count events).2.seeks = s.seeks ∧
      (s.readBy count events).2.reads <:+ events := by
  induction events with
  | nil => exact ⟨rfl, rfl, List.suffix_rfl⟩
  | cons event later ih =>
    cases event with
    | atMost limit => exact ⟨rfl, rfl, List.suffix_cons _ _⟩
    | interrupted =>
      obtain ⟨content, seeks, reads⟩ := ih
      exact ⟨content, seeks, reads.trans (List.suffix_cons _ _)⟩
    | failed detail => exact ⟨rfl, rfl, List.suffix_cons _ _⟩

end Tabular.Source

namespace Tabular.Csv

/-- The limits are not zero, and no buffer is larger than can be had. -/
structure Options.Allowed (o : Options) : Prop where
  usable : o.isUsable = true
  bufferSize_le : o.bufferSize ≤ largestBuffer
  readChunk_le : o.readChunk ≤ largestBuffer

namespace Parser

/-- What a fill makes of a parser: only its window, its source and what is known of the end of
the source change. -/
theorem fill_eq (p : Parser) :
    ∃ atEnd, p.fill.2 = { p with
      window := (p.window.refill p.source p.options.readChunk).2.1
      source := (p.window.refill p.source p.options.readChunk).2.2
      atEnd } := by
  unfold fill
  rcases p.window.refill p.source p.options.readChunk with ⟨outcome, window, source⟩
  cases outcome with
  | error error => exact ⟨p.atEnd, rfl⟩
  | ok exhausted => exact ⟨p.atEnd || exhausted, rfl⟩

theorem openCell_eq (p : Parser) (atEnd : Bool) :
    ∃ pending quoted fieldOpen, (p.openCell atEnd).2 =
      { p with window.pending := pending, quoted, fieldOpen } := by
  unfold openCell skipBlankLines Window.skipLineBreaks
  by_cases opened : p.fieldOpen = true
  · rw [if_pos opened]
    exact ⟨p.window.pending, p.quoted, p.fieldOpen, rfl⟩
  · rw [if_neg opened]
    by_cases first : p.spans.isEmpty = true
    · simp only [first, ↓reduceIte]
      split
      · exact ⟨_, p.quoted, p.fieldOpen, rfl⟩
      · exact ⟨_, _, _, rfl⟩
    · simp only [first, Bool.false_eq_true, ↓reduceIte]
      exact ⟨_, _, _, rfl⟩

/-- What `q` keeps of `p` if it comes after it in the same step. -/
structure Continues (p q : Parser) : Prop where
  options : q.options = p.options
  generation : q.generation = p.generation
  rowStart : q.rowStart = p.rowStart
  rows : q.rows = p.rows
  status : q.status = p.status
  delimiter : q.tokenizer.delimiter = p.tokenizer.delimiter
  bufferCapacity : q.buffer.capacity = p.buffer.capacity
  windowCapacity : q.window.capacity = p.window.capacity
  content : q.source.content = p.source.content
  seeks : q.source.seeks = p.source.seeks
  reads : q.source.reads <:+ p.source.reads
  live : p.buffer.live.toList <+: q.buffer.live.toList

theorem Continues.refl (p : Parser) : Continues p p :=
  ⟨rfl, rfl, rfl, rfl, rfl, rfl, rfl, rfl, rfl, rfl, List.suffix_rfl, List.prefix_rfl⟩

theorem Continues.trans {p q r : Parser} (first : Continues p q) (then_ : Continues q r) :
    Continues p r where
  options := then_.options.trans first.options
  generation := then_.generation.trans first.generation
  rowStart := then_.rowStart.trans first.rowStart
  rows := then_.rows.trans first.rows
  status := then_.status.trans first.status
  delimiter := then_.delimiter.trans first.delimiter
  bufferCapacity := then_.bufferCapacity.trans first.bufferCapacity
  windowCapacity := then_.windowCapacity.trans first.windowCapacity
  content := then_.content.trans first.content
  seeks := then_.seeks.trans first.seeks
  reads := then_.reads.trans first.reads
  live := first.live.trans then_.live

theorem Move.continues {p q : Parser} (move : Move p q) : Continues p q := by
  cases move with
  | openCell atEnd =>
    obtain ⟨pending, quoted, fieldOpen, same⟩ := p.openCell_eq atEnd
    rw [same]
    exact { Continues.refl p with }
  | tokenize =>
    exact { Continues.refl p with
      delimiter := by simp [Parser.tokenize]
      live := (p.tokenizer.readField_grows _ _ _).1 }
  | endCell =>
    unfold Parser.endCell
    split <;> exact { Continues.refl p with }
  | fill =>
    obtain ⟨atEnd, same⟩ := p.fill_eq
    obtain ⟨content, seeks, reads⟩ := p.source.readBy_keeps
      (p.window.recycled.request p.options.readChunk) p.source.reads
    rw [same]
    exact { Continues.refl p with
      windowCapacity := by simp
      content := by simpa [Source.read] using content
      seeks := by simpa [Source.read] using seeks
      reads := by simpa [Source.read] using reads }
  | skipMark =>
    unfold Parser.skipMark Window.skipMark
    refine { Continues.refl p with windowCapacity := ?_ }
    dsimp only
    split
    · split <;> rfl
    · rfl

theorem Moves.continues {p q : Parser} (moves : Moves p q) : Continues p q := by
  induction moves with
  | refl => exact Continues.refl p
  | tail _ move ih => exact ih.trans move.continues

/-! ## A new parser -/

def initial (source : Source) (options : Options) : Parser where
  source := source
  options := options
  tokenizer := { delimiter := options.delimiter }
  window := { capacity := max options.readChunk byteOrderMark.length }
  buffer := { capacity := options.bufferSize }

@[simp] theorem initial_source (source : Source) (options : Options) :
    (initial source options).source = source := rfl

theorem new_eq_initial (source : Source) {options : Options} (allowed : options.Allowed) :
    Parser.new source options = .ok (initial source options) := by
  have chunk : ¬ largestBuffer < max options.readChunk byteOrderMark.length := by
    have mark : byteOrderMark.length ≤ largestBuffer := by decide
    have := allowed.readChunk_le
    omega
  have size : ¬ largestBuffer < options.bufferSize := Nat.not_lt_of_le allowed.bufferSize_le
  rw [Parser.new, allowed.usable]
  simp only [chunk, size, Bool.not_true, Bool.false_eq_true, decide_false, Bool.or_self, ↓reduceIte]
  rfl

theorem new_inv {source : Source} {options : Options} {p : Parser}
    (made : Parser.new source options = .ok p) :
    options.Allowed ∧ p = initial source options := by
  unfold Parser.new at made
  dsimp only at made
  split at made
  · cases made
  · rename_i usable
    split at made
    · cases made
    · rename_i small
      cases made
      simp only [Bool.not_eq_true, Bool.not_eq_false', Bool.or_eq_true, decide_eq_true_eq,
        not_or, Nat.not_lt] at usable small
      exact ⟨⟨usable, small.2, Nat.le_trans (Nat.le_max_left _ _) small.1⟩, rfl⟩

/-! ## How a record lies in the memory -/

/-- The finished cells of the record in hand lie side by side in front of the cell in hand, and
there are not too many of them. -/
structure Layout (p : Parser) : Prop where
  tiles : Tiles p.rowStart p.spans.toList p.fieldStart
  fieldStart_le : p.fieldStart ≤ p.buffer.live.size
  live_le : p.buffer.live.size ≤ p.buffer.capacity
  columns_le : p.spans.size ≤ p.options.maxColumns

theorem Layout.span_le {p : Parser} (layout : Layout p) {span : CellSpan}
    (member : span ∈ p.spans.toList) : span.stop ≤ p.buffer.live.size :=
  Nat.le_trans (layout.tiles.inside member).2 layout.fieldStart_le

theorem Move.layout {p q : Parser} (move : Move p q) (layout : Layout p) : Layout q := by
  cases move with
  | openCell atEnd =>
    obtain ⟨pending, quoted, fieldOpen, same⟩ := p.openCell_eq atEnd
    rw [same]
    exact { layout with }
  | tokenize =>
    obtain ⟨grows, bounded⟩ := p.tokenizer.readField_grows p.window.pending p.buffer.capacity
      p.buffer.live
    have longer := grows.length_le
    rw [Array.length_toList, Array.length_toList] at longer
    exact { layout with
      fieldStart_le := Nat.le_trans layout.fieldStart_le longer
      live_le := bounded layout.live_le }
  | endCell =>
    unfold Parser.endCell
    split
    · exact layout
    · rename_i more
      have behind := layout.fieldStart_le
      exact {
        tiles := by
          have pushed := layout.tiles.push
            { offset := p.fieldStart, length := p.buffer.live.size - p.fieldStart,
              quoted := p.quoted } rfl
          simp only [CellSpan.stop, Nat.add_sub_cancel' behind] at pushed
          rw [Array.toList_push]
          exact pushed
        fieldStart_le := Nat.le_refl _
        live_le := layout.live_le
        columns_le := by
          rw [Array.size_push]
          exact Nat.succ_le_of_lt (Nat.lt_of_not_le more) }
  | fill =>
    obtain ⟨atEnd, same⟩ := p.fill_eq
    rw [same]
    exact { layout with }
  | skipMark => exact { layout with }

theorem layout_initial (source : Source) (options : Options) : Layout (initial source options) where
  tiles := rfl
  fieldStart_le := Nat.le_refl _
  live_le := Nat.zero_le _
  columns_le := Nat.zero_le _

theorem layout_new {source : Source} {options : Options} {p : Parser}
    (made : Parser.new source options = .ok p) : Layout p := by
  obtain ⟨-, rfl⟩ := new_inv made
  exact layout_initial source options

theorem layout_beginGeneration {p : Parser} (layout : Layout p) : Layout p.beginGeneration := by
  have behind := layout.tiles.le
  have inside := layout.fieldStart_le
  have size : (p.buffer.shift p.rowStart).live.size = p.buffer.live.size - p.rowStart := by
    unfold RowBuffer.shift
    split
    · rename_i front
      rw [front, Nat.sub_zero]
    · simp only [Array.size_extract, Nat.min_self]
  exact {
    tiles := by
      have moved := layout.tiles.shift p.rowStart (Nat.le_refl _)
      rw [Nat.sub_self] at moved
      rw [beginGeneration, Array.toList_map]
      exact moved
    fieldStart_le := by
      show p.fieldStart - p.rowStart ≤ (p.buffer.shift p.rowStart).live.size
      rw [size]
      omega
    live_le := by
      show (p.buffer.shift p.rowStart).live.size ≤ (p.buffer.shift p.rowStart).capacity
      simpa [size] using Nat.le_add_right_of_le layout.live_le
    columns_le := by simpa using layout.columns_le }

end Parser

end Tabular.Csv
