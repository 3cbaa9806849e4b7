import Tabular.Proofs.Csv.RecordInHand
import Tabular.Proofs.Csv.Calls

/-!
What one advance of a parse does to the records that are still to come. It leaves them as they
are, or completes the first of them, or finds that there are none; and it fails only because the
first of them is over a limit. Whatever text comes later makes no difference to this.
-/
namespace Tabular.Csv

open Grammar

/-- The failure to be reported of a record, if it is over a limit of the parse. -/
inductive Parser.Exceeds (p : Parser) (r : Record) : Error → Prop where
  | columns (wide : p.options.maxColumns < r.length) :
      Exceeds p r (.tooManyColumns (p.rows + 1) p.options.maxColumns)
  | size (large : p.buffer.capacity ≤ p.rowStart + recordSize r) :
      Exceeds p r (.rowTooLarge (p.rows + 1) p.buffer.capacity)

namespace Parser

/-! ## Room -/

/-- There was room for the last byte of `taken`, if any record had been begun before it. Which
records are ahead of `p` is told by `ahead`. -/
def Roomy (p : Parser) (ahead : Bytes → List Record) (taken : Bytes) : Prop :=
  taken ≠ [] → ahead taken.dropLast ≠ [] →
    p.rowStart + textSize (ahead taken.dropLast) < p.buffer.capacity

/-- A first part of `text`, and not all of it, fills the memory. -/
def Overfull (p : Parser) (ahead : Bytes → List Record) (text : Bytes) : Prop :=
  ∃ taken rest, text = taken ++ rest ∧ rest ≠ [] ∧
    ∀ later, p.buffer.capacity ≤ p.rowStart + textSize (ahead (taken ++ later))

theorem not_overfull_nil (p : Parser) (ahead : Bytes → List Record) : ¬ p.Overfull ahead [] := by
  rintro ⟨taken, rest, split, left, -⟩
  exact left (List.append_eq_nil_iff.mp split.symm).2

theorem Overfull.append {p : Parser} {ahead : Bytes → List Record} {text : Bytes}
    (full : p.Overfull ahead text) (later : Bytes) : p.Overfull ahead (text ++ later) := by
  obtain ⟨taken, rest, split, left, large⟩ := full
  exact ⟨taken, rest ++ later, by rw [split, List.append_assoc],
    fun none => left (List.append_eq_nil_iff.mp none).1, large⟩

/-! ## Opening a cell -/

/-- A cell has been begun, and there is something to read for it, or else a record of which to read
the end. -/
structure Begun (p : Parser) : Prop extends Layout p where
  opened : p.fieldOpen = true
  ended : p.window.pending = [] → p.tokenizer.state.isBetweenRecords = false
  begun : p.tokenizer.state.isBetweenRecords = true →
    ∀ b, p.window.pending.head? = some b → Byte.isLineBreak b = false
  unmarked : p.tokenizer.started = false → startsWithMark p.window.pending = false

/-- A cell that is begun on a text completes the record as the text does by itself, provided that
its flag was taken from the first byte of the text. -/
theorem completion_begun {p q : Parser} (text : Bytes) (closed : p.fieldOpen = false)
    (fieldStart : p.fieldStart = p.buffer.live.size)
    (outside : p.tokenizer.state.isWithinCell = false)
    (same : q = { p with
      window := q.window, quoted := text.head? == some Byte.quote, fieldOpen := true }) :
    q.completion text = p.completion text := by
  have openText : q.openText = [] := by
    rw [same]
    show p.buffer.live.toList.drop p.fieldStart = []
    rw [fieldStart, ← Array.length_toList, List.drop_length]
  have whole : resume p.tokenizer.delimiter p.tokenizer.state text =
      ((cell p.tokenizer.delimiter text).1.bytes, (cell p.tokenizer.delimiter text).2) := by
    cases state : p.tokenizer.state with
    | recordStart => rfl
    | recordEnd => rfl
    | fieldEnd => rfl
    | inField => rw [state] at outside; cases outside
    | inQuoted => rw [state] at outside; cases outside
    | afterQuote => rw [state] at outside; cases outside
  have flag := cell_quoted p.tokenizer.delimiter text
  have delimiter : q.tokenizer = p.tokenizer := by rw [same]
  have opened : q.fieldOpen = true := by rw [same]
  have quoted : q.quoted = (cell p.tokenizer.delimiter text).1.quoted := by rw [same, flag]
  have done : q.doneCells = p.doneCells := by rw [same]; rfl
  rw [completion, completion, opened, closed, delimiter, whole, openText, quoted, done,
    if_pos rfl, if_neg Bool.false_ne_true, record_eq]
  rfl

/-- Once the line breaks in front of it have been left out, a cell that has been begun on what waits
stands in front of the records that were ahead of `p`. -/
structure Fronts (p : Parser) (ahead : Bytes → List Record) (skipped : Bytes) (q : Parser) :
    Prop where
  split : p.window.pending = skipped ++ q.window.pending
  waits : q.window.pending = [] → skipped = []
  begins : ∀ text, text.head? = q.window.pending.head? → ahead (skipped ++ text) = q.resumed text
  size_eq : p.rowStart + textSize (ahead skipped) = p.buffer.live.size
  size_le : ∀ text, p.buffer.live.size ≤ p.rowStart + textSize (ahead text)

inductive Opening (p : Parser) (atEnd : Bool) : Bool × Parser → Prop where
  /-- Nothing but line breaks was waiting. -/
  | nothingYet (q : Parser) (coherent : Coherent q) (empty : q.window.pending = [])
      (tokenizer : q.tokenizer = p.tokenizer)
      (blank : p.window.pending.dropWhile Byte.isLineBreak = [])
      (ahead : ∀ later, q.ahead later = p.ahead (p.window.pending ++ later))
      (none : p.ahead p.window.pending.dropLast = []) : Opening p atEnd (false, q)
  /-- The data has ended between two records. -/
  | nothingMore (q : Parser) (layout : Layout q) (empty : q.window.pending = [])
      (ended : atEnd = true) (noCells : q.spans.isEmpty = true) (opened : q.fieldOpen = true)
      (between : q.tokenizer.state.isBetweenRecords = true)
      (ahead : p.ahead p.window.pending = [])
      (none : p.ahead p.window.pending.dropLast = []) : Opening p atEnd (true, q)
  | begun (q : Parser) (begun : Begun q) (skipped : Bytes) (fronts : Fronts p p.ahead skipped q) :
      Opening p atEnd (true, q)

theorem openCell_within {p : Parser} (atEnd : Bool) (coherent : Coherent p)
    (opened : p.fieldOpen = true) : Opening p atEnd (p.openCell atEnd) := by
  have within := coherent.opened opened
  have has : p.hasRecord = true := by rw [hasRecord, within, Bool.or_true]
  rw [openCell, if_pos opened]
  refine .begun p ⟨coherent.toLayout, opened, ?_, ?_, ?_⟩ []
    ⟨rfl, fun _ => rfl, fun text _ => ahead_of_hasRecord has text, coherent.size_ahead_nil,
      coherent.size_le_ahead⟩
  · exact fun _ => TokenState.isBetweenRecords_of_within within
  · intro between
    rw [TokenState.isBetweenRecords_of_within within] at between
    cases between
  · intro fresh
    rw [coherent.started fresh] at has
    cases has

theorem openCell_behind {p : Parser} (atEnd : Bool) (coherent : Coherent p)
    (closed : p.fieldOpen = false) (cells : p.spans.isEmpty = false) :
    Opening p atEnd (p.openCell atEnd) := by
  have behind := coherent.behindCell closed cells
  have has : p.hasRecord = true := by
    rw [hasRecord, cells]
    rfl
  have outside : p.tokenizer.state.isWithinCell = false := by
    rw [behind]
    rfl
  unfold openCell skipBlankLines
  rw [if_neg (by rw [closed]; exact Bool.false_ne_true)]
  simp only [cells, Bool.false_eq_true, ↓reduceIte, Bool.false_and]
  refine .begun _ ⟨{ coherent.toLayout with }, rfl, ?_, ?_, ?_⟩ []
    ⟨rfl, fun _ => rfl, ?_, coherent.size_ahead_nil, coherent.size_le_ahead⟩
  · exact fun _ => congrArg TokenState.isBetweenRecords behind
  · intro between
    rw [behind] at between
    cases between
  · intro fresh
    rw [coherent.started fresh] at has
    cases has
  · intro text head
    have whole := completion_begun (q := { p with
      quoted := p.window.pending.head? == some Byte.quote, fieldOpen := true })
      text closed (coherent.closed closed) outside (by rw [head])
    rw [List.nil_append, ahead_of_hasRecord has, resumed, resumed, whole]

theorem openCell_between {p : Parser} (atEnd : Bool) (coherent : Coherent p)
    (closed : p.fieldOpen = false) (first : p.spans.isEmpty = true)
    (unmarked : Unmarked p p.window.pending) : Opening p atEnd (p.openCell atEnd) := by
  have between := coherent.betweenRecords closed first
  have outside : p.tokenizer.state.isWithinCell = false := by
    cases state : p.tokenizer.state <;> rw [state] at between <;> first | rfl | cases between
  have none : p.hasRecord = false := by
    rw [hasRecord, first, outside]
    rfl
  have ahead := ahead_of_noRecord none
  -- What is left out is no part of any record.
  have breaks : ∀ b ∈ p.window.pending.takeWhile Byte.isLineBreak, Byte.isLineBreak b = true :=
    fun b member => List.mem_takeWhile_imp member
  have blank : ∀ {skipped : Bytes}, (∀ b ∈ skipped, Byte.isLineBreak b = true) →
      p.ahead skipped = [] := fun breaks =>
    (ahead _).trans (records_of_blank _ _ (List.dropWhile_eq_nil_iff.mpr breaks))
  have split := List.takeWhile_append_dropWhile (p := Byte.isLineBreak) (l := p.window.pending)
  unfold Unmarked at unmarked
  unfold openCell skipBlankLines Window.skipLineBreaks
  rw [if_neg (by rw [closed]; exact Bool.false_ne_true)]
  simp only [first, ↓reduceIte, Bool.true_and]
  rcases front : p.window.pending.dropWhile Byte.isLineBreak with _ | ⟨b, rest⟩
  · rw [front, List.append_nil] at split
    rw [split] at breaks
    cases atEnd with
    | false =>
      refine .nothingYet _ { coherent with } rfl rfl front ?_ (blank fun b member =>
        breaks b (List.dropLast_subset _ member))
      intro later
      rw [ahead, ← records_dropWhile, List.dropWhile_append_of_pos breaks, records_dropWhile]
      exact ahead_of_noRecord none later
    | true =>
      exact .nothingMore _ { coherent.toLayout with } rfl rfl first rfl between (blank breaks)
        (blank fun b member => breaks b (List.dropLast_subset _ member))
  · rw [front] at unmarked split
    have head : ∀ c, (b :: rest).head? = some c → Byte.isLineBreak c = false := by
      intro c same
      have met := List.head?_dropWhile_not Byte.isLineBreak p.window.pending
      rw [front, same] at met
      simpa using met
    have noCells : p.doneCells = [] := by
      rw [doneCells_eq, Array.isEmpty_iff.mp first]
      rfl
    refine .begun _ ⟨{ coherent.toLayout with }, rfl, ?_, fun _ => head, unmarked⟩
      (p.window.pending.takeWhile Byte.isLineBreak)
      ⟨split.symm, fun empty => ?_, ?_, ?_, coherent.size_le_ahead⟩
    · intro empty
      cases empty
    · cases empty
    · intro text same
      have something : text ≠ [] := by
        rintro rfl
        cases same
      rw [ahead, ← records_dropWhile, List.dropWhile_append_of_pos breaks, records_dropWhile,
        resumed, completion_begun text closed (coherent.closed closed) outside (by rw [same]),
        completion, closed, noCells]
      exact records_eq_cons _ _ something fun c this => head c (same.symm.trans this)
    · simp [blank breaks, ← coherent.size_ahead_nil, ahead]

theorem openCell_reads {p : Parser} (atEnd : Bool) (coherent : Coherent p)
    (unmarked : Unmarked p p.window.pending) : Opening p atEnd (p.openCell atEnd) := by
  cases opened : p.fieldOpen with
  | true => exact openCell_within atEnd coherent opened
  | false =>
    cases first : p.spans.isEmpty with
    | true => exact openCell_between atEnd coherent opened first unmarked
    | false => exact openCell_behind atEnd coherent opened first

/-! ## Reading a cell -/

theorem tokenize_eq {p : Parser} {reading : Tokenizer.Reading}
    (read : p.tokenizer.readField p.window.pending p.buffer.capacity p.buffer.live = reading) :
    p.tokenize = (reading.result, { p with
      tokenizer := reading.tokenizer
      window.pending := reading.rest
      buffer := p.buffer.extended reading.out (reading.out.size - p.buffer.live.size) }) := by
  rw [← read]
  rfl

@[simp] theorem tokenize_started (p : Parser) : p.tokenize.2.tokenizer.started = true := by
  show (p.tokenizer.readField _ _ _).tokenizer.started = true
  unfold Tokenizer.readField
  dsimp only
  split
  · split <;> rfl
  · split <;> rfl

/-- What the tokenizer makes of the open cell, whatever follows what waits. -/
inductive Reading (p : Parser) : FieldResult × Parser → Prop where
  /-- All that waited belongs to the cell. -/
  | within (q : Parser) (inside : q.tokenizer.state.isWithinCell = true)
      (something : p.window.pending ≠ []) (empty : q.window.pending = [])
      (same : ∀ later, q.completion later = p.completion (p.window.pending ++ later))
      (roomy : p.Roomy p.resumed p.window.pending) : Reading p (.inputUsed, q)
  /-- The record does not fit. -/
  | noRoom (q : Parser) (taken rest : Bytes) (split : p.window.pending = taken ++ rest)
      (left : rest ≠ []) (full : taken = [] → p.buffer.capacity ≤ p.buffer.live.size)
      (large : ∀ later,
        p.buffer.capacity ≤ p.rowStart + recordSize (p.completion (taken ++ later)).1) :
      Reading p (.noRoom, q)
  /-- The cell ends, with its record or before a further cell. -/
  | ends (q : Parser) (endsRecord : Bool) (taken : Bytes)
      (split : p.window.pending = taken ++ q.window.pending)
      (something : taken = [] → p.window.pending = [] ∧ endsRecord = true)
      (state : q.tokenizer.state = if endsRecord then .recordEnd else .fieldEnd)
      (same : ∀ later, (taken = [] → later = []) → p.completion (taken ++ later) =
        let c : Cell := { bytes := q.openText, quoted := q.quoted }
        if endsRecord then (q.doneCells ++ [c], later)
        else (q.doneCells ++ c :: (record q.tokenizer.delimiter later).1,
          (record q.tokenizer.delimiter later).2))
      (roomy : p.Roomy p.resumed taken)
      (room : taken ≠ [] → q.buffer.live.size < q.buffer.capacity) :
      Reading p (.field endsRecord, q)

theorem completion_of_grown {p q : Parser} (layout : Layout p) (opened : p.fieldOpen = true)
    {kept text rest : Bytes} (spans : q.spans = p.spans) (fieldStart : q.fieldStart = p.fieldStart)
    (quoted : q.quoted = p.quoted) (still : q.fieldOpen = p.fieldOpen)
    (delimiter : q.tokenizer.delimiter = p.tokenizer.delimiter)
    (grown : q.buffer.live.toList = p.buffer.live.toList ++ kept)
    (reading : resume p.tokenizer.delimiter p.tokenizer.state text =
      (kept ++ (resume p.tokenizer.delimiter q.tokenizer.state rest).1,
        (resume p.tokenizer.delimiter q.tokenizer.state rest).2)) :
    q.completion rest = p.completion text := by
  have done := doneCells_of_grown layout spans ⟨kept, grown.symm⟩
  have inCell := openText_of_grown layout fieldStart grown
  rw [completion, completion, still, opened, if_pos rfl, if_pos rfl, reading, done, inCell, quoted,
    delimiter]
  dsimp only
  rw [List.append_assoc]

theorem completion_of_ended {p q : Parser} (layout : Layout p) (opened : p.fieldOpen = true)
    {kept text rest : Bytes} (spans : q.spans = p.spans) (fieldStart : q.fieldStart = p.fieldStart)
    (quoted : q.quoted = p.quoted)
    (grown : q.buffer.live.toList = p.buffer.live.toList ++ kept)
    (reading : resume p.tokenizer.delimiter p.tokenizer.state text = (kept, rest)) :
    p.completion text =
      (q.doneCells ++ (closeCell p.tokenizer.delimiter
          { bytes := q.openText, quoted := q.quoted } rest).1,
        (closeCell p.tokenizer.delimiter { bytes := q.openText, quoted := q.quoted } rest).2) := by
  have done := doneCells_of_grown layout spans ⟨kept, grown.symm⟩
  have inCell := openText_of_grown layout fieldStart grown
  rw [completion, opened, if_pos rfl, reading, done, inCell, quoted]

theorem withoutMark_of_begun {p : Parser} (begun : Begun p) :
    p.tokenizer.withoutMark p.window.pending = p.window.pending := by
  unfold Tokenizer.withoutMark
  cases started : p.tokenizer.started with
  | true => rfl
  | false => rw [begun.unmarked started]; rfl

theorem classify_within {state : TokenState} (within : state.isWithinCell = true) (rest : Bytes)
    (full : Bool) : Tokenizer.classify state rest full =
      if !rest.isEmpty && full then .noRoom else .inputUsed := by
  cases state <;> first | rfl | cases within

theorem tokenize_ended {p : Parser} (begun : Begun p) (empty : p.window.pending = []) :
    Reading p p.tokenize := by
  have read : p.tokenizer.readField p.window.pending p.buffer.capacity p.buffer.live =
      ⟨.field true, { p.tokenizer with state := .recordEnd, started := true }, [],
        p.buffer.live⟩ := by
    rw [Tokenizer.readField, withoutMark_of_begun begun, empty]
    simp only [List.isEmpty_nil, ↓reduceIte, begun.ended empty, Bool.false_eq_true]
  rw [tokenize_eq read]
  refine .ends _ true [] empty (fun _ => ⟨empty, rfl⟩) rfl ?_ (fun some => absurd rfl some)
    (fun some => absurd rfl some)
  intro later past
  have ended := completion_of_ended (q := { p with
    tokenizer := { p.tokenizer with state := .recordEnd, started := true }
    window.pending := []
    buffer := p.buffer.extended p.buffer.live (p.buffer.live.size - p.buffer.live.size) })
    begun.toLayout begun.opened rfl rfl rfl (List.append_nil _).symm (resume_nil _ _)
  rw [past rfl, List.append_nil, ended]
  rfl

/-- What a scan keeps of a cell had room up to the last byte. -/
theorem roomy_of_scan {p : Parser} (begun : Begun p) {taken : Bytes}
    (roomy : taken ≠ [] → ∃ before,
      resume p.tokenizer.delimiter p.tokenizer.state taken.dropLast = (before, []) ∧
        p.buffer.live.size + before.length < p.buffer.capacity) :
    p.Roomy p.resumed taken := by
  intro some _
  obtain ⟨before, reading, room⟩ := roomy some
  obtain ⟨size, rest⟩ := completion_of_resume begun.toLayout begun.opened reading
  rw [resumed, rest, records_nil, textSize_cons, textSize_nil]
  omega

theorem readField_of_begun {p : Parser} (begun : Begun p) (some : p.window.pending ≠ [])
    (room : p.buffer.live.size < p.buffer.capacity) :
    p.tokenizer.readField p.window.pending p.buffer.capacity p.buffer.live =
      let reached := scan p.tokenizer.delimiter p.buffer.capacity p.tokenizer.state
        p.window.pending p.buffer.live
      ⟨Tokenizer.classify reached.state reached.rest (p.buffer.capacity ≤ reached.out.size),
        { p.tokenizer with state := reached.state, started := true }, reached.rest,
        reached.out⟩ := by
  rw [Tokenizer.readField, withoutMark_of_begun begun]
  simp only [List.isEmpty_iff, some, ↓reduceIte, room]

theorem tokenize_scanned {p : Parser} (begun : Begun p) (some : p.window.pending ≠ [])
    (room : p.buffer.live.size < p.buffer.capacity) : Reading p p.tokenize := by
  have layout := begun.toLayout
  have read := readField_of_begun begun some room
  obtain ⟨taken, kept, progress, split, grown, roomy, reads⟩ := scan_begun p.tokenizer.delimiter
    p.buffer.capacity p.tokenizer.state p.window.pending p.buffer.live some room begun.begun
  rcases reached : scan p.tokenizer.delimiter p.buffer.capacity p.tokenizer.state
    p.window.pending p.buffer.live with ⟨state, rest, out⟩
  rw [reached] at read split grown reads
  dsimp only at read split grown reads
  have tokenized := tokenize_eq read
  have grown' : p.tokenize.2.buffer.live.toList = p.buffer.live.toList ++ kept := by
    rw [tokenized]
    exact grown
  have moved := (Move.tokenize p).layout layout
  have roomy' := roomy_of_scan begun roomy
  rcases reads with ⟨final, -, room', b, parts, reading⟩ | ⟨inside, stopped, reading⟩
  · have ended := fun later => completion_of_ended (q := p.tokenize.2) layout begun.opened rfl rfl
      rfl grown' (reading later)
    rw [tokenized] at ended ⊢
    cases state with
    | fieldEnd =>
      refine .ends _ false taken split (fun none => absurd none progress) rfl ?_ roomy'
        (fun _ => room')
      intro later _
      rw [ended, closeCell, if_pos (parts.mp rfl)]
      rfl
    | recordEnd =>
      have breaks : b ≠ p.tokenizer.delimiter := fun same => by cases parts.mpr same
      refine .ends _ true taken split (fun none => absurd none progress) rfl ?_ roomy'
        (fun _ => room')
      intro later _
      rw [ended, closeCell, if_neg breaks]
      rfl
    | recordStart => cases final
    | inField => cases final
    | inQuoted => cases final
    | afterQuote => cases final
  · have state' : p.tokenize.2.tokenizer.state = state := by rw [tokenized]
    have onward := fun later => completion_of_grown (q := p.tokenize.2) layout begun.opened rfl rfl
      rfl rfl (by simp [tokenize]) grown' (by rw [state']; exact reading later)
    rw [classify_within inside] at tokenized
    by_cases used : rest = []
    · rw [used, List.append_nil] at split
      rw [tokenized] at onward ⊢
      rw [used] at onward ⊢
      rw [← split] at onward roomy'
      exact .within _ inside some rfl onward roomy'
    · -- What is left unread found no room, and the record is longer than what was kept of it.
      have full : p.buffer.capacity ≤ out.size := stopped.resolve_left used
      have large : ∀ later,
          p.buffer.capacity ≤ p.rowStart + recordSize (p.completion (taken ++ later)).1 := by
        intro later
        have more := size_le_completion moved begun.opened later
        rw [onward, tokenized] at more
        exact Nat.le_trans full more
      have left : rest.isEmpty = false := by simpa using used
      rw [tokenized]
      simp only [left, full, decide_true, Bool.not_false, Bool.and_self, ↓reduceIte]
      exact .noRoom _ taken rest split used (fun none => absurd none progress) large

/-- The tokenizer reads a begun cell on as the grammar does. -/
theorem tokenize_reads {p : Parser} (begun : Begun p) : Reading p p.tokenize := by
  by_cases empty : p.window.pending = []
  · exact tokenize_ended begun empty
  · by_cases room : p.buffer.live.size < p.buffer.capacity
    · exact tokenize_scanned begun empty room
    · have read : p.tokenizer.readField p.window.pending p.buffer.capacity p.buffer.live =
          ⟨.noRoom, { p.tokenizer with started := true }, p.window.pending, p.buffer.live⟩ := by
        rw [Tokenizer.readField, withoutMark_of_begun begun]
        simp only [List.isEmpty_iff, empty, ↓reduceIte, room]
      rw [tokenize_eq read]
      have full := Nat.le_of_not_lt room
      exact .noRoom _ [] p.window.pending rfl empty (fun _ => full) fun later =>
        Nat.le_trans full (size_le_completion begun.toLayout begun.opened _)

/-! ## One advance -/

/-- A record has just been completed. -/
structure Whole (p : Parser) : Prop extends Layout p, Completed p where
  state : p.tokenizer.state = .recordEnd
  started : p.tokenizer.started = true

/-- The data has been found to be over, after its last record. -/
structure Over (p : Parser) : Prop extends Layout p where
  noCells : p.spans.isEmpty = true
  opened : p.fieldOpen = true
  state : p.tokenizer.state = .recordStart
  started : p.tokenizer.started = true
  empty : p.window.pending = []

theorem Over.openCell {p : Parser} (past : Over p) (atEnd : Bool) :
    p.openCell atEnd = (true, p) := by
  rw [Parser.openCell, if_pos past.opened]

theorem Whole.afterRow {p : Parser} (whole : Whole p) : Coherent p.afterRow where
  toLayout := layout_afterRow whole.toLayout whole.toCompleted
  opened opened := by
    simp [whole.closed] at opened
  closed _ := whole.fieldStart
  behindCell _ some := by cases some
  betweenRecords _ _ := by
    simp [whole.state, TokenState.isBetweenRecords]
  started fresh := by
    simp [whole.started] at fresh

/-- Nothing but line breaks was waiting, and the tokenizer has not been asked. -/
structure Passed (p q : Parser) : Prop where
  tokenizer : q.tokenizer = p.tokenizer
  buffer : q.buffer = p.buffer
  blank : p.window.pending.dropWhile Byte.isLineBreak = []
  empty : q.window.pending = []

/-- What an advance makes of the records ahead of `p`, which are told by `ahead`. It takes a first
part of what waits, and whatever follows that makes no difference to it. -/
inductive Advanced (p : Parser) (atEnd : Bool) (ahead : Bytes → List Record) :
    Except Error Progress × Parser → Prop where
  | onward (progress : Progress) (q : Parser)
      (going : progress = .field ∨ progress = .needInput) (coherent : Coherent q)
      (offered : q.tokenizer.started = true ∨ Passed p q) (taken : Bytes) (split : p.window.pending = taken ++ q.window.pending)
      (same : ∀ later, q.ahead later = ahead (taken ++ later)) (roomy : p.Roomy ahead taken) :
      Advanced p atEnd ahead (.ok progress, q)
  | row (q : Parser) (whole : Whole q) (taken : Bytes)
      (split : p.window.pending = taken ++ q.window.pending)
      (first : ∀ later, (p.window.pending = [] → later = []) →
        ahead (taken ++ later) = q.doneCells :: records q.tokenizer.delimiter later)
      (room : p.window.pending ≠ [] → q.buffer.live.size < q.buffer.capacity) :
      Advanced p atEnd ahead (.ok .row, q)
  | dataEnd (q : Parser) (past : Over q) (ended : atEnd = true)
      (nothing : ahead p.window.pending = []) (none : ahead p.window.pending.dropLast = []) :
      Advanced p atEnd ahead (.ok .dataEnd, q)
  | failed (error : Error) (q : Parser)
      (exceeds : ∀ later, (p.window.pending = [] → later = []) → ∃ first rest,
        ahead (p.window.pending ++ later) = first :: rest ∧ p.Exceeds first error)
      (full : ∀ number, error = .rowTooLarge number p.buffer.capacity →
        p.Overfull ahead p.window.pending) :
      Advanced p atEnd ahead (.error error, q)

@[simp] theorem length_doneCells (p : Parser) : p.doneCells.length = p.spans.size := by
  rw [doneCells_eq, List.length_map, Array.length_toList]

theorem doneCells_endCell {p q : Parser} (closed : p.endCell = (.ok (), q)) :
    q.doneCells = p.doneCells ++ [{ bytes := p.openText, quoted := p.quoted }] ∧
      q.spans.isEmpty = false := by
  unfold endCell at closed
  split at closed
  · cases closed
  · cases closed
    have whole : p.buffer.live.toList.length ≤ p.buffer.live.size := Nat.le_refl _
    refine ⟨?_, by simp⟩
    rw [doneCells_eq, doneCells_eq, openText, Array.toList_push, List.map_append]
    simp only [List.map_cons, List.map_nil, CellSpan.bytesIn_eq]
    rw [List.take_of_length_le (by rw [List.length_drop, Array.length_toList])]

theorem endCell_cases (p : Parser) :
    (p.options.maxColumns ≤ p.spans.size ∧
        p.endCell = (.error (.tooManyColumns (p.rows + 1) p.options.maxColumns), p)) ∨
      ∃ q, p.endCell = (.ok (), q) ∧ q.fieldOpen = false ∧
        q.fieldStart = q.buffer.live.size ∧ q.tokenizer = p.tokenizer ∧ q.window = p.window ∧
        q.buffer = p.buffer := by
  unfold endCell
  by_cases full : p.spans.size ≥ p.options.maxColumns
  · rw [if_pos full]
    exact Or.inl ⟨full, rfl⟩
  · rw [if_neg full]
    exact Or.inr ⟨_, rfl, rfl, rfl, rfl, rfl, rfl⟩

theorem Coherent.of_within {p : Parser} (layout : Layout p) (opened : p.fieldOpen = true)
    (inside : p.tokenizer.state.isWithinCell = true) (started : p.tokenizer.started = true) :
    Coherent p where
  toLayout := layout
  opened _ := inside
  closed closed := by
    rw [opened] at closed
    cases closed
  behindCell closed := by
    rw [opened] at closed
    cases closed
  betweenRecords closed := by
    rw [opened] at closed
    cases closed
  started fresh := by
    rw [started] at fresh
    cases fresh

theorem Coherent.of_ended {p : Parser} (layout : Layout p) (closed : p.fieldOpen = false)
    (fieldStart : p.fieldStart = p.buffer.live.size) (some : p.spans.isEmpty = false)
    (state : p.tokenizer.state = .fieldEnd) (started : p.tokenizer.started = true) :
    Coherent p where
  toLayout := layout
  opened opened := by
    rw [closed] at opened
    cases opened
  closed _ := fieldStart
  behindCell _ _ := state
  betweenRecords _ none := by
    rw [some] at none
    cases none
  started fresh := by
    rw [started] at fresh
    cases fresh

theorem unmarked_of_started {p : Parser} (started : p.tokenizer.started = true) (text : Bytes) :
    Unmarked p text := by
  intro fresh
  rw [started] at fresh
  cases fresh

def settle : FieldResult × Parser → Except Error Progress × Parser
  | (.inputUsed, p) => (.ok .needInput, p)
  | (.noRoom, p) => (.error (.rowTooLarge (p.rows + 1) p.buffer.capacity), p)
  | (.dataEnd, p) => (.ok .dataEnd, p)
  | (.field endsRecord, p) =>
      match p.endCell with
      | (.error error, p) => (.error error, p)
      | (.ok (), p) => (.ok (if endsRecord then .row else .field), p)

theorem advance_settle {p q : Parser} {atEnd : Bool} (opened : p.openCell atEnd = (true, q)) :
    p.advance atEnd = settle q.tokenize := by
  unfold advance
  rw [opened]
  dsimp only
  rcases q.tokenize with ⟨_ | _ | _ | _, r⟩ <;> rfl

theorem Fronts.roomy {p q : Parser} {ahead : Bytes → List Record} {skipped taken : Bytes}
    (fronts : Fronts p ahead skipped q) (begun : Begun q) (continues : Continues p q)
    (live : q.buffer.live = p.buffer.live)
    (first : taken ≠ [] → taken.head? = q.window.pending.head?)
    (roomy : q.Roomy q.resumed taken) (something : taken = [] → skipped = []) :
    p.Roomy ahead (skipped ++ taken) := by
  intro some _
  have nonempty : taken ≠ [] := by
    rintro rfl
    exact some (by rw [something rfl]; rfl)
  have room := roomy nonempty (by rw [resumed]; exact List.cons_ne_nil _ _)
  rw [continues.rowStart, continues.bufferCapacity] at room
  rw [List.dropLast_append_of_ne_nil nonempty]
  by_cases last : taken.dropLast = []
  · have kept := size_le_completion begun.toLayout begun.opened taken.dropLast
    have front := fronts.size_eq
    rw [resumed, textSize_cons] at room
    rw [live, continues.rowStart] at kept
    rw [last, List.append_nil, front]
    omega
  · have head : taken.dropLast.head? = q.window.pending.head? := by
      rw [← first nonempty]
      cases taken with
      | nil => exact absurd rfl nonempty
      | cons b rest =>
        cases rest with
        | nil => exact absurd rfl last
        | cons c rest => rfl
    rw [fronts.begins _ head]
    exact room

theorem Fronts.begins_front {p q : Parser} {ahead : Bytes → List Record}
    {skipped taken rest : Bytes} (fronts : Fronts p ahead skipped q)
    (split : q.window.pending = taken ++ rest) (some : taken ≠ []) (later : Bytes) :
    ahead (skipped ++ (taken ++ later)) = q.resumed (taken ++ later) := by
  refine fronts.begins _ ?_
  rw [split, List.head?_append_of_ne_nil _ some, List.head?_append_of_ne_nil _ some]

theorem Fronts.overfull {p q : Parser} {ahead : Bytes → List Record} {skipped taken rest : Bytes}
    (fronts : Fronts p ahead skipped q) (continues : Continues p q)
    (split : q.window.pending = taken ++ rest) (left : rest ≠ [])
    (full : taken = [] → p.buffer.capacity ≤ p.buffer.live.size)
    (large : ∀ later,
      q.buffer.capacity ≤ q.rowStart + recordSize (q.completion (taken ++ later)).1) :
    p.Overfull ahead p.window.pending := by
  refine ⟨skipped ++ taken, rest, ?_, left, ?_⟩
  · rw [fronts.split, split, List.append_assoc]
  · intro later
    by_cases none : taken = []
    · exact Nat.le_trans (full none) (fronts.size_le _)
    · have more := large later
      rw [continues.rowStart, continues.bufferCapacity] at more
      rw [List.append_assoc, fronts.begins_front split none, resumed, textSize_cons]
      omega

theorem advanced_of_ended {p r : Parser} {atEnd endsRecord : Bool} {ahead : Bytes → List Record}
    {taken : Bytes} (reading : Continues p r) (layout : Layout r)
    (started : r.tokenizer.started = true)
    (split : p.window.pending = taken ++ r.window.pending)
    (something : p.window.pending = [] → endsRecord = true)
    (state : r.tokenizer.state = if endsRecord then .recordEnd else .fieldEnd)
    (same : ∀ later, (p.window.pending = [] → later = []) → ahead (taken ++ later) =
      let c : Cell := { bytes := r.openText, quoted := r.quoted }
      if endsRecord then (r.doneCells ++ [c]) :: records r.tokenizer.delimiter later
      else (r.doneCells ++ c :: (record r.tokenizer.delimiter later).1) ::
        records r.tokenizer.delimiter (record r.tokenizer.delimiter later).2)
    (roomy : p.Roomy ahead taken)
    (room : p.window.pending ≠ [] → r.buffer.live.size < r.buffer.capacity) :
    Advanced p atEnd ahead (settle (.field endsRecord, r)) := by
  unfold settle
  dsimp only
  rcases r.endCell_cases with
    ⟨full, refused⟩ | ⟨u, ended, closed, fieldStart, tokenizer, window, buffer⟩
  · rw [refused, reading.rows, reading.options]
    rw [reading.options] at full
    refine .failed _ r ?_ (fun _ large => by cases large)
    intro later past
    have first := same (r.window.pending ++ later) fun none => by
      have none' := split.symm.trans none
      rw [(List.append_eq_nil_iff.mp none').2, past none, List.append_nil]
    rw [← List.append_assoc, ← split] at first
    cases endsRecord <;> exact ⟨_, _, first, .columns (Nat.lt_of_le_of_lt full (by simp))⟩
  · obtain ⟨done, some⟩ := doneCells_endCell ended
    have layout' := (Move.endCell r).layout layout
    rw [ended] at layout' ⊢
    have state' : u.tokenizer.state = if endsRecord then .recordEnd else .fieldEnd := by
      rw [tokenizer, state]
    rw [← tokenizer] at started
    rw [← window] at split
    rw [← buffer] at room
    cases endsRecord with
    | true =>
      refine .row u ⟨layout', ⟨closed, fieldStart⟩, state', started⟩ taken split ?_ room
      intro later past
      rw [same later past, done, tokenizer]
      rfl
    | false =>
      have has : u.hasRecord = true := by
        rw [hasRecord, some]
        rfl
      refine .onward .field u (Or.inl rfl)
        (Coherent.of_ended layout' closed fieldStart some state' started)
        (Or.inl started) taken split ?_ roomy
      intro later
      have something' : p.window.pending ≠ [] := fun none => Bool.false_ne_true (something none)
      rw [same later fun none => absurd none something', ahead_of_hasRecord has, resumed,
        completion, closed, if_neg Bool.false_ne_true, done, tokenizer]
      simp only [Bool.false_eq_true, ↓reduceIte, List.append_assoc, List.singleton_append]

section

variable {p q r : Parser} {atEnd : Bool} {ahead : Bytes → List Record} {skipped taken rest : Bytes}

theorem advanced_of_within (fronts : Fronts p ahead skipped q) (begun : Begun q)
    (opening : Continues p q) (live : q.buffer.live = p.buffer.live) (layout : Layout r)
    (going : r.fieldOpen = true) (started : r.tokenizer.started = true)
    (delimiter : r.tokenizer.delimiter = q.tokenizer.delimiter)
    (inside : r.tokenizer.state.isWithinCell = true) (something : q.window.pending ≠ [])
    (empty : r.window.pending = [])
    (same : ∀ later, r.completion later = q.completion (q.window.pending ++ later))
    (roomy : q.Roomy q.resumed q.window.pending) :
    Advanced p atEnd ahead (settle (.inputUsed, r)) := by
  have has : r.hasRecord = true := by rw [hasRecord, inside, Bool.or_true]
  refine .onward .needInput r (Or.inr rfl) (Coherent.of_within layout going inside started)
    (Or.inl started) (skipped ++ q.window.pending) ?_ ?_
    (fronts.roomy begun opening live (fun _ => rfl) roomy fun none => absurd none something)
  · rw [empty, List.append_nil]
    exact fronts.split
  · intro later
    rw [ahead_of_hasRecord has, List.append_assoc,
      fronts.begins_front (List.append_nil _).symm something, resumed, resumed, same, delimiter]

theorem advanced_of_noRoom (fronts : Fronts p ahead skipped q) (opening : Continues p q)
    (live : q.buffer.live = p.buffer.live) (reading : Continues p r)
    (split : q.window.pending = taken ++ rest) (left : rest ≠ [])
    (full : taken = [] → q.buffer.capacity ≤ q.buffer.live.size)
    (large : ∀ later,
      q.buffer.capacity ≤ q.rowStart + recordSize (q.completion (taken ++ later)).1) :
    Advanced p atEnd ahead (settle (.noRoom, r)) := by
  have overfull := fronts.overfull opening split left
    (by rw [← opening.bufferCapacity, ← live]; exact full) large
  have something : q.window.pending ≠ [] := by simp [split, left]
  unfold settle
  dsimp only
  rw [reading.rows, reading.bufferCapacity]
  refine .failed _ r (fun later past => ?_) fun _ _ => overfull
  have first := fronts.begins_front (List.append_nil _).symm something later
  rw [← List.append_assoc, ← fronts.split, resumed] at first
  refine ⟨_, _, first, .size ?_⟩
  rw [← opening.rowStart, ← opening.bufferCapacity, split, List.append_assoc]
  exact large _

theorem advanced_of_ends {endsRecord : Bool} (fronts : Fronts p ahead skipped q) (begun : Begun q)
    (opening : Continues p q) (live : q.buffer.live = p.buffer.live) (reading : Continues p r)
    (layout : Layout r) (started : r.tokenizer.started = true)
    (delimiter : r.tokenizer.delimiter = q.tokenizer.delimiter)
    (split : q.window.pending = taken ++ r.window.pending)
    (something : taken = [] → q.window.pending = [] ∧ endsRecord = true)
    (state : r.tokenizer.state = if endsRecord then .recordEnd else .fieldEnd)
    (same : ∀ later, (taken = [] → later = []) → q.completion (taken ++ later) =
      let c : Cell := { bytes := r.openText, quoted := r.quoted }
      if endsRecord then (r.doneCells ++ [c], later)
      else (r.doneCells ++ c :: (record r.tokenizer.delimiter later).1,
        (record r.tokenizer.delimiter later).2))
    (roomy : q.Roomy q.resumed taken)
    (room : taken ≠ [] → r.buffer.live.size < r.buffer.capacity) :
    Advanced p atEnd ahead (settle (.field endsRecord, r)) := by
  have used : taken = [] → q.window.pending = [] := fun none => (something none).1
  have took : taken = [] → p.window.pending = [] := fun none => by
    rw [fronts.split, used none, fronts.waits (used none), List.append_nil]
  have divided : p.window.pending = skipped ++ taken ++ r.window.pending := by
    rw [fronts.split, split, List.append_assoc]
  have first : taken ≠ [] → taken.head? = q.window.pending.head? := fun some => by
    rw [split, List.head?_append_of_ne_nil _ some]
  refine advanced_of_ended reading layout started divided ?_ state ?_
    (fronts.roomy begun opening live first roomy fun none => fronts.waits (used none))
    fun some => room (mt took some)
  · intro none
    have past := (List.append_eq_nil_iff.mp (divided.symm.trans none)).1
    exact (something (List.append_eq_nil_iff.mp past).2).2
  · intro later past
    have whole := same later fun none => past (took none)
    have begins : ahead (skipped ++ (taken ++ later)) = q.resumed (taken ++ later) := by
      by_cases none : taken = []
      · refine fronts.begins _ ?_
        rw [none, used none, past (took none), List.nil_append]
      · exact fronts.begins_front split none later
    rw [List.append_assoc, begins, resumed, whole, ← delimiter]
    cases endsRecord <;> rfl

theorem advanced_of_read {result : FieldResult} (fronts : Fronts p ahead skipped q)
    (begun : Begun q) (opening : Continues p q) (live : q.buffer.live = p.buffer.live)
    (tokenized : q.tokenize = (result, r)) : Advanced p atEnd ahead (settle (result, r)) := by
  have reading := opening.trans (Move.tokenize q).continues
  have reads := tokenize_reads begun
  have layout := (Move.tokenize q).layout begun.toLayout
  have started := q.tokenize_started
  have delimiter := (Move.tokenize q).continues.delimiter
  have going : q.tokenize.2.fieldOpen = true := begun.opened
  rw [tokenized] at reading reads layout started going delimiter
  dsimp only at reading layout started going delimiter
  cases reads with
  | within r inside something empty same roomy =>
    exact advanced_of_within fronts begun opening live layout going started delimiter inside
      something empty same roomy
  | noRoom r taken rest split left full large =>
    exact advanced_of_noRoom fronts opening live reading split left full large
  | ends r endsRecord taken split something state same roomy room =>
    exact advanced_of_ends fronts begun opening live reading layout started delimiter split
      something state same roomy room

end

theorem advance_of_nothing {p q : Parser} {atEnd : Bool} (opened : p.openCell atEnd = (true, q))
    (layout : Layout q) (noCells : q.spans.isEmpty = true) (going : q.fieldOpen = true)
    (between : q.tokenizer.state.isBetweenRecords = true) (empty : q.window.pending = []) :
    ∃ r, p.advance atEnd = (.ok .dataEnd, r) ∧ Over r := by
  have nothing : q.tokenizer.withoutMark [] = [] := by
    unfold Tokenizer.withoutMark
    split <;> rfl
  have read : q.tokenizer.readField q.window.pending q.buffer.capacity q.buffer.live =
      ⟨.dataEnd, { q.tokenizer with state := .recordStart, started := true }, [],
        q.buffer.live⟩ := by
    rw [Tokenizer.readField, empty, nothing]
    simp only [List.isEmpty_nil, ↓reduceIte, between]
  have layout' := (Move.tokenize q).layout layout
  rw [tokenize_eq read] at layout'
  unfold advance
  rw [opened]
  dsimp only
  rw [tokenize_eq read]
  exact ⟨_, rfl, layout', noCells, going, rfl, rfl, rfl⟩

theorem unmarked_onward {p q : Parser} (offered : q.tokenizer.started = true ∨ Passed p q)
    {later : Bytes} (unmarked : Unmarked p (p.window.pending ++ later)) :
    Unmarked q (q.window.pending ++ later) := by
  rcases offered with started | passed
  · exact unmarked_of_started started _
  · intro fresh
    rw [passed.tokenizer] at fresh
    have past := unmarked fresh
    rw [List.dropWhile_append_of_pos (List.dropWhile_eq_nil_iff.mp passed.blank)] at past
    rw [passed.empty]
    exact past

/-- One advance, whatever text is still to come. -/
theorem advance_reads {p : Parser} (atEnd : Bool) (coherent : Coherent p)
    (unmarked : Unmarked p p.window.pending) : Advanced p atEnd p.ahead (p.advance atEnd) := by
  have opening := openCell_reads atEnd coherent unmarked
  have continues := (Move.openCell p atEnd).continues
  have live : (p.openCell atEnd).2.buffer = p.buffer := by
    obtain ⟨pending, quoted, fieldOpen, same⟩ := p.openCell_eq atEnd
    rw [same]
  rcases opened : p.openCell atEnd with ⟨going, q⟩
  rw [opened] at opening continues live
  cases opening with
  | nothingYet q coherent empty tokenizer blank ahead none =>
    unfold advance
    rw [opened]
    refine .onward .needInput q (Or.inr rfl) coherent
      (Or.inr ⟨tokenizer, live, blank, empty⟩) p.window.pending ?_ ahead
      (fun _ some => absurd none some)
    rw [empty, List.append_nil]
  | nothingMore q layout empty ended noCells going between nothing none =>
    obtain ⟨r, advanced, past⟩ := advance_of_nothing opened layout noCells going between empty
    rw [advanced]
    exact .dataEnd r past ended nothing none
  | begun q begun skipped fronts =>
    rw [advance_settle opened]
    exact advanced_of_read fronts begun continues (congrArg RowBuffer.live live) rfl

end Parser

end Tabular.Csv
