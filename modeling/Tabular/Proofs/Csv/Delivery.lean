import Tabular.Proofs.Csv.Calls
import Tabular.Proofs.Csv.Chunks

/-!
What a parse delivers. A step delivers the first of the records that are still to come, finishing
delivers those that the input read so far still holds, and a whole run delivers all of them.
-/
namespace Tabular.Csv

open Grammar

namespace Parser

/-! ## A new generation -/

@[simp] theorem live_beginGeneration (p : Parser) :
    p.beginGeneration.buffer.live.toList = p.buffer.live.toList.drop p.rowStart := by
  show (p.buffer.shift p.rowStart).live.toList = _
  unfold RowBuffer.shift
  by_cases front : p.rowStart = 0
  · rw [if_pos front, front, List.drop_zero]
  · rw [if_neg front]
    simp only [Array.toList_extract, List.extract_eq_take_drop]
    rw [List.take_of_length_le (by rw [List.length_drop, Array.length_toList])]

theorem doneCells_beginGeneration {p : Parser} (layout : Layout p) :
    p.beginGeneration.doneCells = p.doneCells := by
  rw [doneCells_eq, doneCells_eq, beginGeneration, Array.toList_map, List.map_map]
  apply List.map_congr_left
  intro span member
  have behind := (layout.tiles.inside member).1
  have live := p.live_beginGeneration
  simp only [beginGeneration] at live
  simp only [Function.comp_apply, CellSpan.bytesIn_eq, live, List.drop_drop]
  rw [Nat.add_sub_cancel' behind]

theorem openText_beginGeneration {p : Parser} (layout : Layout p) :
    p.beginGeneration.openText = p.openText := by
  have behind := layout.tiles.le
  rw [openText, live_beginGeneration, List.drop_drop]
  show p.buffer.live.toList.drop (p.rowStart + (p.fieldStart - p.rowStart)) = _
  rw [Nat.add_sub_cancel' behind, openText]

@[simp] theorem isEmpty_beginGeneration (p : Parser) :
    p.beginGeneration.spans.isEmpty = p.spans.isEmpty := by
  simp only [beginGeneration, Array.isEmpty, Array.size_map]

@[simp] theorem hasRecord_beginGeneration (p : Parser) :
    p.beginGeneration.hasRecord = p.hasRecord := by
  simp [hasRecord]

/-- A new generation moves what is in hand and changes none of it. -/
theorem ahead_beginGeneration {p : Parser} (layout : Layout p) (text : Bytes) :
    p.beginGeneration.ahead text = p.ahead text := by
  rw [ahead, ahead, completion, completion, hasRecord_beginGeneration,
    doneCells_beginGeneration layout, openText_beginGeneration layout]
  rfl

theorem Coherent.beginGeneration {p : Parser} (coherent : Coherent p) :
    Coherent p.beginGeneration where
  toLayout := layout_beginGeneration coherent.toLayout
  opened := coherent.opened
  closed closed := by
    have size := congrArg List.length p.live_beginGeneration
    rw [List.length_drop, Array.length_toList, Array.length_toList] at size
    rw [size, ← coherent.closed closed]
    rfl
  behindCell closed some := by
    exact coherent.behindCell closed (by simpa using some)
  betweenRecords closed none := by
    exact coherent.betweenRecords closed (by simpa using none)
  started fresh := by
    simpa using coherent.started fresh

theorem Over.beginGeneration {p : Parser} (past : Over p) : Over p.beginGeneration where
  toLayout := layout_beginGeneration past.toLayout
  noCells := by
    simpa using past.noCells
  opened := past.opened
  state := past.state
  started := past.started
  empty := past.empty

theorem Supplied.beginGeneration {p : Parser} (supplied : Supplied p) :
    Supplied p.beginGeneration :=
  { supplied with bufferSize := by simpa using supplied.bufferSize }

/-! ## The place of the next record -/

theorem Awaits.beginGeneration {p : Parser} {n : Nat} {text : Bytes} (awaits : Awaits p n text) :
    Awaits p.beginGeneration n text := by
  cases awaits with
  | fresh untouched same single =>
    refine .fresh { untouched.toCoherent.beginGeneration with
      unchecked := untouched.unchecked
      rows := untouched.rows
      none := by simpa using untouched.none
      front := untouched.front } same single
  | standing stands checked same =>
    exact .standing { stands.toCoherent.beginGeneration with unmarked := stands.unmarked }
      checked same

theorem Awaits.layout {p : Parser} {n : Nat} {text : Bytes} (awaits : Awaits p n text) :
    Layout p := by
  cases awaits with
  | fresh untouched => exact untouched.toLayout
  | standing stands => exact stands.toLayout

theorem awaits_afterRow {p : Parser} (whole : Whole p) (checked : p.markChecked = true) (n : Nat) :
    Awaits p.afterRow n (p.textTo n) :=
  .standing { whole.afterRow with unmarked := unmarked_of_started whole.started _ } checked rfl

/-- Between two calls `text` is what the records to come are made of, and no read will fail. -/
structure Awaiting (p : Parser) (text : Bytes) : Prop where
  awaits : Awaits p p.source.extent text
  feeding : Feeding p

theorem awaiting_afterRow {p : Parser} (whole : Whole p) (feeding : Feeding p)
    (checked : p.markChecked = true) : Awaiting p.afterRow p.toCome where
  awaits := by
    rw [← textTo_extent]
    exact awaits_afterRow whole checked _
  feeding := { feeding with }

/-! ## The input already read -/

inductive Found (p : Parser) : Except Error StepOutcome × Parser → Prop where
  | row (q : Parser) (whole : Whole q) (continues : Continues p q)
      (first : p.ahead p.window.pending =
        q.doneCells :: records q.tokenizer.delimiter q.window.pending) :
      Found p (.ok .row, q)
  | noMore (q : Parser) (none : p.ahead p.window.pending = []) : Found p (.ok .noMoreInput, q)
  | failed (error : Error) (q : Parser) (first : Record) (rest : List Record)
      (ahead : p.ahead p.window.pending = first :: rest) (exceeds : p.Exceeds first error)
      (full : ∀ number, error = .rowTooLarge number p.buffer.capacity → p.window.pending ≠ []) :
      Found p (.error error, q)

theorem flush_advance {p : Parser} (left : Coherent p ∨ Over p)
    (unmarked : Unmarked p p.window.pending) : Advanced p true p.ahead (p.advance true) := by
  rcases left with coherent | past
  · exact advance_reads true coherent unmarked
  · have between : p.tokenizer.state.isBetweenRecords = true := by
      rw [past.state]
      rfl
    obtain ⟨q, advanced, past'⟩ := advance_of_nothing (past.openCell true) past.toLayout
      past.noCells past.opened between past.empty
    rw [advanced]
    refine .dataEnd q past' rfl ?_ ?_
    all_goals
      rw [past.empty]
      exact past.ahead_nil

theorem Found.of_same {p q : Parser} (continues : Continues p q)
    (same : q.ahead q.window.pending = p.ahead p.window.pending)
    (waits : p.window.pending = [] → q.window.pending = [])
    {outcome : Except Error StepOutcome × Parser} (found : Found q outcome) : Found p outcome := by
  cases found with
  | row r whole later first => exact .row r whole (continues.trans later) (same.symm.trans first)
  | noMore r none => exact .noMore r (same.symm.trans none)
  | failed error r first rest ahead exceeds full =>
    rw [continues.bufferCapacity] at full
    exact .failed error r first rest (same.symm.trans ahead) (exceeds.of_continues continues)
      fun number large none => full number large (waits none)

theorem flush_onward {p q : Parser} {progress : Progress} (left : Coherent p ∨ Over p)
    (unmarked : Unmarked p p.window.pending) (advanced : p.advance true = (.ok progress, q))
    (going : progress = .field ∨ progress = .needInput) :
    Coherent q ∧ Unmarked q q.window.pending ∧
      q.ahead q.window.pending = p.ahead p.window.pending ∧
      (p.window.pending = [] → q.window.pending = []) := by
  have reads := flush_advance left unmarked
  rw [advanced] at reads
  cases reads with
  | onward progress q going coherent offered taken split same roomy =>
    have later' : Unmarked q (q.window.pending ++ []) :=
      unmarked_onward offered (by rw [List.append_nil]; exact unmarked)
    rw [List.append_nil] at later'
    refine ⟨coherent, later', ?_, fun none => ?_⟩
    · rw [same, split]
    · exact (List.append_eq_nil_iff.mp (split.symm.trans none)).2
  | row q => simp at going
  | dataEnd q => simp at going

theorem flushRow_reads (p : Parser) (left : Coherent p ∨ Over p)
    (unmarked : Unmarked p p.window.pending) : Found p p.flushRow := by
  fun_induction flushRow p with
  | case1 p error q advanced =>
    have reads := flush_advance left unmarked
    rw [advanced] at reads
    cases reads with
    | failed error q exceeds full =>
      obtain ⟨first, rest, ahead, exceeds⟩ := exceeds [] fun _ => rfl
      rw [List.append_nil] at ahead
      refine .failed error q first rest ahead exceeds fun number large none => ?_
      have overflows := full number large
      rw [none] at overflows
      exact not_overfull_nil _ _ overflows
  | case2 p q advanced =>
    have reads := flush_advance left unmarked
    rw [advanced] at reads
    cases reads with
    | onward progress q going => simp at going
    | row q whole taken split first =>
      refine .row q whole (moves_of_advance advanced).continues ?_
      rw [← first q.window.pending fun none => ?_, split]
      exact (List.append_eq_nil_iff.mp (split.symm.trans none)).2
  | case3 p q advanced =>
    have reads := flush_advance left unmarked
    rw [advanced] at reads
    cases reads with
    | onward progress q going => simp at going
    | dataEnd q past ended nothing => exact .noMore q nothing
  | case4 p q advanced ih =>
    obtain ⟨coherent, later, same, waits⟩ := flush_onward left unmarked advanced (Or.inl rfl)
    exact (ih (Or.inl coherent) later).of_same (moves_of_advance advanced).continues same waits
  | case5 p q advanced ih =>
    obtain ⟨coherent, later, same, waits⟩ := flush_onward left unmarked advanced (Or.inr rfl)
    exact (ih (Or.inl coherent) later).of_same (moves_of_advance advanced).continues same waits

end Parser

/-! ## Rows handed over -/

/-- Hand rows over in turn until one of them is refused. -/
def feed {β : Type} (handler : RowHandler β) : List Row → β → Except Error Unit × β
  | [], s => (.ok (), s)
  | row :: rest, s =>
      match handler row s with
      | (.error error, s) => (.error error, s)
      | (.ok (), s) => feed handler rest s

/-- A record that a parse with the given limits can take. -/
def Options.Fits (o : Options) (r : Record) : Prop :=
  r.length ≤ o.maxColumns ∧ recordSize r < o.bufferSize

instance (o : Options) (r : Record) : Decidable (o.Fits r) :=
  inferInstanceAs (Decidable (_ ∧ _))

/-- Rows that deliver the given records, numbered on from `before`. -/
structure Deliver (before : Nat) (rs : List Record) (rows : List Row) : Prop where
  cells : rows.map Row.cells = rs
  numbers : rows.map Row.number = List.range' (before + 1) rs.length

theorem Deliver.cons {before : Nat} {rs : List Record} {rows : List Row} (row : Row)
    (number : row.number = before + 1) (rest : Deliver (before + 1) rs rows) :
    Deliver before (row.cells :: rs) (row :: rows) where
  cells := by rw [List.map_cons, rest.cells]
  numbers := by rw [List.map_cons, rest.numbers, number, List.length_cons, List.range'_succ]

theorem deliver_nil (before : Nat) : Deliver before [] [] := ⟨rfl, rfl⟩

namespace Parser

theorem Whole.hasRecord_afterRow {p : Parser} (whole : Whole p) : p.afterRow.hasRecord = false := by
  simp [hasRecord, whole.state, TokenState.isWithinCell]

theorem Whole.ahead_afterRow {p : Parser} (whole : Whole p) (text : Bytes) :
    p.afterRow.ahead text = records p.tokenizer.delimiter text :=
  ahead_of_noRecord whole.hasRecord_afterRow text

theorem Whole.fits {p q : Parser} (whole : Whole q) (continues : Continues p.beginGeneration q)
    (bufferSize : p.buffer.capacity = p.options.bufferSize)
    (room : q.buffer.live.size < q.buffer.capacity) : p.options.Fits q.doneCells := by
  have options : q.options = p.options := continues.options
  have front : q.rowStart = 0 := continues.rowStart
  have capacity : q.buffer.capacity = p.options.bufferSize :=
    continues.bufferCapacity.trans (by simpa using bufferSize)
  have filled := whole.recordSize_doneCells
  refine ⟨?_, ?_⟩
  · simpa [options] using whole.columns_le
  · rw [whole.fieldStart, front, Nat.zero_add] at filled
    rwa [filled, ← capacity]

theorem not_exceeds {p : Parser} {r : Record} {error : Error}
    (narrow : r.length ≤ p.options.maxColumns)
    (room : p.rowStart + recordSize r < p.buffer.capacity) : ¬ p.Exceeds r error := by
  intro exceeds
  cases exceeds with
  | columns wide => exact absurd narrow (Nat.not_le_of_lt wide)
  | size large => exact absurd room (Nat.not_lt_of_le large)

theorem flush_nothing {p : Parser} (left : Coherent p ∨ Over p)
    (unmarked : Unmarked p p.window.pending) (nothing : p.ahead p.window.pending = []) :
    ∃ q, ∀ (β : Type) (handler : RowHandler β) (s : β), p.flush handler s = (.ok (), q, s) := by
  have found := p.flushRow_reads left unmarked
  rcases result : p.flushRow with ⟨outcome, q⟩
  rw [result] at found
  refine ⟨q, fun β handler s => ?_⟩
  cases found with
  | row q whole continues first => cases nothing.symm.trans first
  | failed error q first rest some => cases nothing.symm.trans some
  | noMore q none => rw [flush, result]

/-! ## A step -/

theorem Moves.markChecked {p q : Parser} (moves : Moves p q) (checked : p.markChecked = true) :
    q.markChecked = true := by
  refine moves.keep (fun p => p.markChecked = true) ?_ checked
  intro p q move checked
  cases move with
  | openCell atEnd =>
    obtain ⟨pending, quoted, fieldOpen, same⟩ := p.openCell_eq atEnd
    rw [same]
    exact checked
  | tokenize => exact checked
  | endCell =>
    unfold Parser.endCell
    split <;> exact checked
  | fill =>
    obtain ⟨atEnd, same⟩ := p.fill_eq
    rw [same]
    exact checked
  | skipMark => rfl

/-- What a step finds, before anything is handed over. -/
def look (p : Parser) : Except Error StepOutcome × Parser :=
  match p.checkMark with
  | (.error error, q) => (.error error, q)
  | (.ok (), q) => q.seekRow

def answered {β : Type} (q : Parser) : Except Error Unit × β → Except Error StepOutcome × Parser × β
  | (.error error, t) => (.error error, { q with status := .failed error.message }, t)
  | (.ok (), t) => (.ok .row, q, t)

def handOver {β : Type} (handler : RowHandler β) (s : β) :
    Except Error StepOutcome × Parser → Except Error StepOutcome × Parser × β
  | (.ok .row, q) => answered q.afterRow (handler q.completedRow s)
  | (.ok .noMoreInput, q) => (.ok .noMoreInput, { q with status := .exhausted }, s)
  | (.error error, q) => (.error error, { q with status := .failed error.message }, s)

theorem parseMore_look {β : Type} (handler : RowHandler β) {p : Parser} (ready : p.status = .ready)
    (s : β) : p.parseMore handler s = handOver handler s p.beginGeneration.look := by
  unfold parseMore step look
  rw [ready]
  dsimp only
  rcases p.beginGeneration.checkMark with ⟨error | _, m⟩
  · rfl
  · dsimp only
    rcases m.seekRow with ⟨error | _ | _, q⟩
    · rfl
    · dsimp only [handOver]
      rcases handler q.completedRow s with ⟨error | _, t⟩ <;> rfl
    · rfl

theorem look_moves (p : Parser) : Moves p p.look.2 := by
  have marking := p.checkMark_moves
  unfold look
  rcases marked : p.checkMark with ⟨error | _, m⟩ <;> rw [marked] at marking
  · exact marking
  · exact marking.trans m.seekRow_moves

theorem Supplied.look {p : Parser} (supplied : Supplied p) : Supplied p.look.2 := by
  have marking := supplied.checkMark
  unfold Parser.look
  rcases marked : p.checkMark with ⟨error | _, m⟩ <;> rw [marked] at marking
  · exact marking
  · exact marking.seekRow

theorem look_checked {p q : Parser} {outcome : StepOutcome} (found : p.look = (.ok outcome, q)) :
    q.markChecked = true := by
  unfold look at found
  have checking : ∀ {m}, p.checkMark = (.ok (), m) → m.markChecked = true := by
    intro m marked
    unfold checkMark at marked
    split at marked
    · rename_i checked
      cases marked
      exact checked
    · split at marked <;> cases marked
      rfl
  rcases marked : p.checkMark with ⟨error | _, m⟩
  · rw [marked] at found
    cases found
  · have moves := m.seekRow_moves
    rw [marked] at found
    dsimp only at found
    rw [found] at moves
    exact moves.markChecked (checking marked)

theorem look_reads {p : Parser} {n : Nat} {text : Bytes} (within : Within p.look.2 n)
    (awaits : Awaits p n text) : Sought p p.ahead n text p.look := by
  have reads := fun within => p.checkMark_reads (n := n) within awaits
  have marking := p.checkMark_moves.continues
  unfold look at within ⊢
  rcases marked : p.checkMark with ⟨outcome, m⟩
  rw [marked] at within reads marking
  cases outcome with
  | error error =>
    cases (reads within).1 with
    | unread detail m scheduled => exact .unread detail m scheduled
  | ok _ =>
    obtain ⟨found, unmarked⟩ := reads within.of_seekRow
    cases found with
    | ok m coherent checked same ahead tokenizer buffer =>
      have sought := m.seekRow_reads within { coherent with
        unmarked := by rw [same, Unmarked, tokenizer]; exact unmarked }
      rw [same, ahead] at sought
      exact sought.of_took (Took.refl p p.ahead) marking

/-- What a step comes to, whatever its handler does, when `text` is still to come and no read
fails. The records ahead are told by `ahead`. -/
inductive Stepped (p : Parser) (ahead : Bytes → List Record) (text : Bytes) : Prop where
  | row (q : Parser) (whole : Whole q) (feeding : Feeding q) (checked : q.markChecked = true)
      (continues : Continues p.beginGeneration q) (taken : Bytes) (split : text = taken ++ q.toCome)
      (first : ∀ later,
        ahead (taken ++ later) = q.doneCells :: records q.tokenizer.delimiter later)
      (room : q.buffer.live.size < q.buffer.capacity)
      (step : ∀ (β : Type) (handler : RowHandler β) (s : β),
        p.parseMore handler s = answered q.afterRow (handler q.completedRow s))
  | noMore (q : Parser) (left : Coherent q ∨ Over q) (feeding : Feeding q)
      (checked : q.markChecked = true) (continues : Continues p.beginGeneration q)
      (used : q.toCome = []) (same : q.ahead [] = ahead text)
      (roomy : p.beginGeneration.Roomy ahead text)
      (step : ∀ (β : Type) (handler : RowHandler β) (s : β),
        p.parseMore handler s = (.ok .noMoreInput, { q with status := .exhausted }, s))
  | failed (error : Error) (q : Parser) (first : Record) (rest : List Record)
      (continues : Continues p.beginGeneration q) (some : ahead text = first :: rest)
      (exceeds : p.beginGeneration.Exceeds first error)
      (full : ∀ number, error = .rowTooLarge number p.beginGeneration.buffer.capacity →
        p.beginGeneration.Overfull ahead text)
      (step : ∀ (β : Type) (handler : RowHandler β) (s : β), p.parseMore handler s =
        (.error error, { q with status := .failed error.message }, s))

theorem parseMore_of_look {p : Parser} {ahead : Bytes → List Record} {text : Bytes}
    (ready : p.status = .ready) (feeding : Feeding p)
    (sought : Sought p.beginGeneration ahead p.source.extent text p.beginGeneration.look) :
    Stepped p ahead text := by
  have supplied := feeding.toSupplied.beginGeneration.look
  have extent := p.beginGeneration.look_moves.extent
  have continues := p.beginGeneration.look_moves.continues
  have steps := fun {β : Type} (handler : RowHandler β) => parseMore_look handler ready
  rcases found : p.beginGeneration.look with ⟨outcome, q⟩
  rw [found] at supplied extent continues sought
  have whole : q.textTo p.source.extent = q.toCome := by
    rw [show p.source.extent = q.source.extent from extent.symm]
    exact textTo_extent q
  have steady : q.source.Steady := fun event member =>
    feeding.steady event (continues.reads.subset member)
  cases sought with
  | row q complete within taken split first room =>
    rw [whole] at split
    refine .row q complete ⟨supplied, steady⟩ (look_checked found) continues taken split first room
      fun β handler s => ?_
    rw [steps, found]
    rfl
  | noMore q left used last roomy =>
    rw [whole] at used
    refine .noMore q left ⟨supplied, steady⟩ (look_checked found) continues used last roomy
      fun β handler s => ?_
    rw [steps, found]
    rfl
  | failed error q first rest some exceeds full =>
    refine .failed error q first rest continues some exceeds full fun β handler s => ?_
    rw [steps, found]
    rfl
  | unread detail q scheduled =>
    exact absurd scheduled fun scheduled => feeding.steady.not_failed scheduled

theorem parseMore_reads {p : Parser} {text : Bytes} (ready : p.status = .ready)
    (awaiting : Awaiting p text) : Stepped p p.ahead text := by
  have layout := awaiting.awaits.layout
  have supplied := awaiting.feeding.toSupplied.beginGeneration.look
  have within := within_extent supplied.ended
  rw [p.beginGeneration.look_moves.extent] at within
  have sought := look_reads within awaiting.awaits.beginGeneration
  rw [show p.beginGeneration.ahead = p.ahead from
    funext fun text => ahead_beginGeneration layout text] at sought
  exact parseMore_of_look ready awaiting.feeding sought

/-! ## Finishing -/

theorem atFinish_reads {p : Parser} (checked : p.markChecked = true) (left : Coherent p ∨ Over p)
    (unmarked : Unmarked p p.window.pending) :
    p.atFinish = { p.beginGeneration with atEnd := true } ∧
      (Coherent p.atFinish ∨ Over p.atFinish) ∧ Unmarked p.atFinish p.atFinish.window.pending ∧
      p.atFinish.ahead p.atFinish.window.pending = p.ahead p.window.pending := by
  have layout : Layout p := left.elim Coherent.toLayout Over.toLayout
  have atFinish : p.atFinish = { p.beginGeneration with atEnd := true } := by
    rw [Parser.atFinish, if_pos checked]
  rw [atFinish]
  refine ⟨rfl, ?_, unmarked, ahead_beginGeneration layout _⟩
  rcases left with coherent | past
  · exact Or.inl { coherent.beginGeneration with }
  · exact Or.inr { past.beginGeneration with }

/-- The end of the data completes one record at most. -/
theorem length_ahead_nil (p : Parser) : (p.ahead []).length ≤ 1 := by
  have none : (p.completion []).2 = [] := by
    rw [completion]
    by_cases opened : p.fieldOpen = true
    · rw [if_pos opened, resume_nil]
      rfl
    · rw [if_neg opened, record_eq]
      rfl
  unfold ahead
  by_cases has : p.hasRecord = true
  · rw [if_pos has, none, records_nil]
    exact Nat.le_refl 1
  · rw [if_neg has, records_nil]
    exact Nat.zero_le 1

theorem last_of_ahead_nil {p : Parser} {first : Record} {rest : List Record}
    (ahead : p.ahead [] = first :: rest) : rest = [] := by
  have few := p.length_ahead_nil
  rw [ahead] at few
  exact List.eq_nil_of_length_eq_zero (Nat.le_zero.mp (Nat.le_of_succ_le_succ few))

def concluded {β : Type} (refused done : Parser) :
    Except Error Unit × β → Except Error Unit × Parser × β
  | (.error error, t) => (.error error, { refused with status := .failed error.message }, t)
  | (.ok (), t) => (.ok (), { done with status := .finished }, t)

/-- What finishing comes to, whatever its handler does, when the input is used up. With no byte left
to read there is no limit on the size of what is in hand. -/
inductive Concluding (p : Parser) : Prop where
  | none (q : Parser) (nothing : p.ahead [] = [])
      (finish : ∀ (β : Type) (handler : RowHandler β) (s : β),
        p.finish handler s = (.ok (), { q with status := .finished }, s))
  | row (q r : Parser) (whole : Whole q) (continues : Continues p.beginGeneration q)
      (only : p.ahead [] = [q.completedRow.cells])
      (finish : ∀ (β : Type) (handler : RowHandler β) (s : β),
        p.finish handler s = concluded q.afterRow r (handler q.completedRow s))
  | failed (q : Parser) (first : Record) (continues : Continues p.beginGeneration q)
      (only : p.ahead [] = [first]) (wide : p.options.maxColumns < first.length)
      (finish : ∀ (β : Type) (handler : RowHandler β) (s : β),
        let error : Error := .tooManyColumns (p.rows + 1) p.options.maxColumns
        p.finish handler s = (.error error, { q with status := .failed error.message }, s))

theorem finish_concluding {p : Parser} (open_ : p.status = .ready ∨ p.status = .exhausted)
    (checked : p.markChecked = true) (left : Coherent p ∨ Over p) (used : p.window.pending = []) :
    Concluding p := by
  obtain ⟨atFinish, left', unmarked, same⟩ := atFinish_reads checked left
    (by intro _; rw [used]; rfl)
  have finishing := fun {β : Type} (handler : RowHandler β) (s : β) {outcome} {q} {t}
    (flushed : p.atFinish.flush handler s = (outcome, q, t)) => finish_open handler open_ flushed
  have found := p.atFinish.flushRow_reads left' unmarked
  rcases result : p.atFinish.flushRow with ⟨outcome, q⟩
  have continues := (moves_of_flushRow result).continues
  rw [result] at found
  rw [used] at same
  rw [atFinish] at continues
  have continues' : Continues p.beginGeneration q := { continues with }
  cases found with
  | noMore q none =>
    refine .none q (same.symm.trans none) fun β handler s => finishing handler s ?_
    rw [flush, result]
  | failed error q first rest some exceeds full =>
    have only := same.symm.trans some
    rw [last_of_ahead_nil only] at only
    rw [atFinish] at exceeds full
    cases exceeds with
    | columns wide =>
      refine .failed q first continues' only wide fun β handler s => finishing handler s ?_
      rw [flush, result]
      rfl
    | size large => exact absurd used (full _ rfl)
  | row q whole _ some =>
    have only := same.symm.trans some
    have last := last_of_ahead_nil only
    rw [last] at only
    -- Behind the last row there is nothing left to find.
    obtain ⟨r, ended⟩ := flush_nothing (Or.inl whole.afterRow)
      (unmarked_of_started whole.started _) ((whole.ahead_afterRow q.window.pending).trans last)
    refine .row q r whole continues' only fun β handler s => ?_
    rcases handled : handler q.completedRow s with ⟨error | _, t⟩
    · refine finishing handler s ?_
      rw [flush, result]
      dsimp only
      rw [handled]
    · refine finishing handler s ?_
      rw [flush, result]
      dsimp only
      rw [handled]
      exact ended β handler t

end Parser

/-! ## A whole run -/

@[simp] theorem accepted_all (answer : Except Error Unit) : answer *> .ok () = answer := by
  cases answer <;> rfl

/-- What a run takes of the records from the given number on, and what it comes to. A record that is
followed by anything has to leave some of the memory free. The last one may fill it, if the input
ends within its text. -/
inductive Options.Takes (o : Options) (inText : Prop) :
    Nat → List Record → List Record → Except Error Unit → Prop where
  | done (number : Nat) : Takes o inText number [] [] (.ok ())
  | next {number : Nat} {r : Record} {rest taken : List Record} {ending : Except Error Unit}
      (narrow : r.length ≤ o.maxColumns)
      (room : recordSize r < o.bufferSize ∨ recordSize r = o.bufferSize ∧ rest = [] ∧ inText)
      (later : Takes o inText (number + 1) rest taken ending) :
      Takes o inText number (r :: rest) (r :: taken) ending
  | wide {number : Nat} {r : Record} {rest : List Record} (wide : o.maxColumns < r.length) :
      Takes o inText number (r :: rest) [] (.error (.tooManyColumns number o.maxColumns))
  | large {number : Nat} {r : Record} {rest : List Record} (large : o.bufferSize ≤ recordSize r)
      (exact : recordSize r = o.bufferSize → ¬ (rest = [] ∧ inText)) :
      Takes o inText number (r :: rest) [] (.error (.rowTooLarge number o.bufferSize))

theorem Options.Takes.of_iff {o : Options} {inText inText' : Prop} {number : Nat}
    {rs taken : List Record} {ending : Except Error Unit} (takes : o.Takes inText number rs taken ending)
    (same : rs ≠ [] → (inText ↔ inText')) : o.Takes inText' number rs taken ending := by
  induction takes with
  | done number => exact .done number
  | next narrow room later ih =>
    have same := same (List.cons_ne_nil _ _)
    exact .next narrow (room.imp_right fun ⟨size, last, inside⟩ => ⟨size, last, same.mp inside⟩)
      (ih fun _ => same)
  | wide wide => exact .wide wide
  | large large exact =>
    have same := same (List.cons_ne_nil _ _)
    exact .large large fun size ⟨last, inside⟩ => exact size ⟨last, same.mpr inside⟩

theorem Options.Takes.all_of_fits {o : Options} {inText : Prop} {number : Nat}
    {rs taken : List Record} {ending : Except Error Unit} (takes : o.Takes inText number rs taken ending)
    (fits : ∀ r ∈ rs, o.Fits r) : taken = rs ∧ ending = .ok () := by
  induction takes with
  | done number => exact ⟨rfl, rfl⟩
  | next narrow room later ih =>
    obtain ⟨rfl, rfl⟩ := ih fun r member => fits r (List.mem_cons_of_mem _ member)
    exact ⟨rfl, rfl⟩
  | wide wide => exact absurd (fits _ List.mem_cons_self).1 (Nat.not_le_of_lt wide)
  | large large => exact absurd (fits _ List.mem_cons_self).2 (Nat.not_lt_of_le large)

theorem Options.Takes.all_of_ok {o : Options} {inText : Prop} {number : Nat}
    {rs taken : List Record} (takes : o.Takes inText number rs taken (.ok ())) : taken = rs := by
  generalize well : Except.ok () = ending at takes
  induction takes with
  | done number => rfl
  | next narrow room later ih => rw [ih well]
  | wide wide => cases well
  | large large => cases well

/-- The last byte of a text belongs to a cell: with one byte less there is less in the cells that are
read of it. -/
def EndsInText (read : Bytes → List Record) (text : Bytes) : Prop :=
  textSize (read text.dropLast) < textSize (read text)

instance (read : Bytes → List Record) (text : Bytes) : Decidable (EndsInText read text) :=
  inferInstanceAs (Decidable (_ < _))

namespace Parser

theorem finish_takes {p : Parser} {inText : Prop} (open_ : p.status = .ready ∨ p.status = .exhausted)
    (checked : p.markChecked = true) (left : Coherent p ∨ Over p) (used : p.window.pending = [])
    (size : ∀ r, p.ahead [] = [r] → recordSize r < p.options.bufferSize ∨
      recordSize r = p.options.bufferSize ∧ inText) :
    ∃ rows taken ending, p.options.Takes inText (p.rows + 1) (p.ahead []) taken ending ∧
      Deliver p.rows taken rows ∧ (∀ row ∈ rows, row.generation = p.generation + 1) ∧
      ∀ (β : Type) (handler : RowHandler β) (s : β), ∃ q,
        p.finish handler s = ((feed handler rows s).1 *> ending, q, (feed handler rows s).2) ∧
          q.status = statusFinished ((feed handler rows s).1 *> ending) := by
  cases finish_concluding open_ checked left used with
  | none q nothing finish =>
    rw [nothing]
    exact ⟨[], [], .ok (), .done _, deliver_nil _, fun _ none => absurd none List.not_mem_nil,
      fun β handler s => ⟨_, finish β handler s, rfl⟩⟩
  | row q last whole continues only finish =>
    have numbered : q.completedRow.number = p.rows + 1 := congrArg (· + 1) continues.rows
    have narrow : q.completedRow.cells.length ≤ p.options.maxColumns := by
      rw [← show q.options = p.options from continues.options]
      exact Nat.le_trans (Nat.le_of_eq q.length_doneCells) whole.columns_le
    refine ⟨[q.completedRow], [q.completedRow.cells], .ok (), ?_, (deliver_nil _).cons _ numbered,
      ?_, fun β handler s => ?_⟩
    · rw [only]
      exact .next narrow ((size _ only).imp_right fun ⟨full, inside⟩ => ⟨full, rfl, inside⟩)
        (.done _)
    · intro row member
      rw [List.mem_singleton.mp member]
      exact continues.generation
    · rw [finish, feed]
      rcases handler q.completedRow s with ⟨error | _, t⟩ <;> exact ⟨_, rfl, rfl⟩
  | failed q first continues only wide finish =>
    rw [only]
    exact ⟨[], [], _, .wide wide, deliver_nil _, fun _ none => absurd none List.not_mem_nil,
      fun β handler s => ⟨_, finish β handler s, rfl⟩⟩

/-- A run hands over some rows and ends in the given way. What it answers, and what it makes of the
state of its handler, is what the rows handed over in turn do, and how it ends if they are all
accepted. -/
def HandsOver (p : Parser) (rows : List Row) (ending : Except Error Unit) : Prop :=
  ∀ (β : Type) (handler : RowHandler β) (s : β), ∃ q, p.drain handler s =
    ((feed handler rows s).1 *> ending, q, (feed handler rows s).2)

theorem handsOver_of_run {p : Parser} {rows : List Row} {ending : Except Error Unit}
    (run : ∀ (β : Type) (handler : RowHandler β) (s : β), ∃ q,
      p.drain handler s = ((feed handler rows s).1 *> ending, q, (feed handler rows s).2) ∧
        ((feed handler rows s).1 *> ending = .ok () → q.status = .finished)) :
    p.HandsOver rows ending := by
  intro β handler s
  obtain ⟨q, drained, -⟩ := run β handler s
  exact ⟨q, drained⟩

/-- What a run comes to when `text` is still to come: it hands over the records ahead, which are told
by `ahead`, up to the first that is over a limit. What it answers, and what it makes of the state of
its handler, is what the rows handed over in turn do, and the limit if they are all accepted. -/
def Drains (p : Parser) (ahead : Bytes → List Record) (text : Bytes) : Prop :=
  ∃ rows taken ending,
    p.options.Takes (EndsInText ahead text) (p.rows + 1) (ahead text) taken ending ∧
    Deliver p.rows taken rows ∧
    ∀ (β : Type) (handler : RowHandler β) (s : β), ∃ q,
      p.drain handler s = ((feed handler rows s).1 *> ending, q, (feed handler rows s).2) ∧
        ((feed handler rows s).1 *> ending = .ok () → q.status = .finished)

theorem endsInText_behind {ahead behind : Bytes → List Record} {r : Record} {taken more : Bytes}
    (first : ∀ later, ahead (taken ++ later) = r :: behind later) (some : more ≠ []) :
    EndsInText ahead (taken ++ more) ↔ EndsInText behind more := by
  simp [EndsInText, List.dropLast_append_of_ne_nil some, first]

section

variable {p q : Parser} {ahead : Bytes → List Record} {text : Bytes}

theorem drains_of_row {taken : Bytes} (bufferSize : p.buffer.capacity = p.options.bufferSize)
    (whole : Whole q) (continues : Continues p.beginGeneration q) (split : text = taken ++ q.toCome)
    (first : ∀ later, ahead (taken ++ later) = q.doneCells :: records q.tokenizer.delimiter later)
    (room : q.buffer.live.size < q.buffer.capacity)
    (step : ∀ (β : Type) (handler : RowHandler β) (s : β),
      p.parseMore handler s = answered q.afterRow (handler q.completedRow s))
    (onward : Drains q.afterRow q.afterRow.ahead q.toCome) : Drains p ahead text := by
  have options : q.afterRow.options = p.options := continues.options
  have numbered : q.afterRow.rows = p.rows + 1 := congrArg (· + 1) continues.rows
  have fits := whole.fits continues bufferSize room
  -- The rest of the run stands behind the record, which is one of those ahead.
  obtain ⟨rows, later, ending, takes, deliver, run⟩ := onward
  rw [funext whole.ahead_afterRow, numbered, options] at takes
  rw [numbered] at deliver
  subst split
  refine ⟨q.completedRow :: rows, q.completedRow.cells :: later, ending, ?_,
    deliver.cons _ numbered, fun β handler s => ?_⟩
  · rw [first]
    refine .next fits.1 (Or.inl fits.2) (takes.of_iff fun some => ?_)
    refine (endsInText_behind first fun none => some ?_).symm
    simp [none]
  · rw [drain, step, feed]
    rcases handler q.completedRow s with ⟨answer, t⟩
    cases answer with
    | error error => exact ⟨_, rfl, fun done => by cases done⟩
    | ok _ => exact run β handler t

/-- A record that only the end of the input completes fills the memory at most by its last byte. -/
theorem last_size (bufferSize : p.buffer.capacity = p.options.bufferSize)
    (memory : 0 < p.options.bufferSize) (nothing : ahead [] = []) (left : Coherent q ∨ Over q)
    (continues : Continues p.beginGeneration q) (same : q.ahead [] = ahead text)
    (roomy : p.beginGeneration.Roomy ahead text) {r : Record} (only : q.ahead [] = [r]) :
    recordSize r < p.options.bufferSize ∨
      recordSize r = p.options.bufferSize ∧ EndsInText ahead text := by
  have some : text ≠ [] := by
    rintro rfl
    rw [nothing, only] at same
    cases same
  rcases left with coherent | past
  · have kept := coherent.size_ahead_nil
    have most := coherent.live_le
    simp only [only, textSize_cons, textSize_nil, continues.rowStart,
      beginGeneration_rowStart] at kept
    rw [continues.bufferCapacity, beginGeneration_buffer_capacity, bufferSize] at most
    rw [EndsInText, ← same, only, textSize_cons, textSize_nil]
    by_cases begun : ahead text.dropLast = []
    · rw [begun, textSize_nil]
      omega
    · have room := roomy some begun
      rw [beginGeneration_buffer_capacity, bufferSize, beginGeneration_rowStart] at room
      omega
  · rw [past.ahead_nil] at only
    cases only

theorem drains_of_noMore (left : Coherent q ∨ Over q) (checked : q.markChecked = true)
    (continues : Continues p.beginGeneration q) (used : q.toCome = [])
    (same : q.ahead [] = ahead text)
    (size : ∀ r, q.ahead [] = [r] → recordSize r < p.options.bufferSize ∨
      recordSize r = p.options.bufferSize ∧ EndsInText ahead text)
    (step : ∀ (β : Type) (handler : RowHandler β) (s : β),
      p.parseMore handler s = (.ok .noMoreInput, { q with status := .exhausted }, s)) :
    Drains p ahead text := by
  have options : q.options = p.options := continues.options
  have rows : q.rows = p.rows := continues.rows
  have left' : Coherent { q with status := .exhausted } ∨ Over { q with status := .exhausted } :=
    left.imp (fun coherent => { coherent with }) fun past => { past with }
  rw [← options] at size
  obtain ⟨delivered, taken, ending, takes, deliver, -, run⟩ :=
    finish_takes (p := { q with status := .exhausted }) (Or.inr rfl) checked left'
      (List.append_eq_nil_iff.mp used).1 size
  rw [show ({ q with status := .exhausted } : Parser).ahead [] = ahead text from same] at takes
  rw [Drains, ← options, ← rows]
  refine ⟨delivered, taken, ending, takes, deliver, fun β handler s => ?_⟩
  obtain ⟨r, finished, status⟩ := run β handler s
  refine ⟨r, ?_, fun done => ?_⟩
  · rw [drain, step]
    exact finished
  · rw [status, done]
    rfl

theorem Overfull.not_endsInText {r : Record} (full : p.Overfull ahead text)
    (only : ahead text = [r]) (size : p.rowStart + recordSize r = p.buffer.capacity) :
    ¬ EndsInText ahead text := by
  obtain ⟨taken, left, rfl, some, filled⟩ := full
  have more := filled left.dropLast
  rw [EndsInText, only, List.dropLast_append_of_ne_nil some, textSize_cons, textSize_nil]
  omega

theorem drains_of_failed {error : Error} {first : Record} {rest : List Record}
    (bufferSize : p.buffer.capacity = p.options.bufferSize) (some : ahead text = first :: rest)
    (exceeds : p.beginGeneration.Exceeds first error)
    (full : ∀ number, error = .rowTooLarge number p.beginGeneration.buffer.capacity →
      p.beginGeneration.Overfull ahead text)
    (step : ∀ (β : Type) (handler : RowHandler β) (s : β), p.parseMore handler s =
      (.error error, { q with status := .failed error.message }, s)) : Drains p ahead text := by
  refine ⟨[], [], .error error, ?_, deliver_nil _, fun β handler s =>
    ⟨{ q with status := .failed error.message }, ?_, fun done => by cases done⟩⟩
  · rw [some]
    cases exceeds with
    | columns wide => exact .wide wide
    | size large =>
      rw [beginGeneration_buffer_capacity, bufferSize] at large ⊢
      refine .large (by simpa using large) ?_
      rintro exact ⟨rfl, inText⟩
      exact (full _ rfl).not_endsInText some (by simp [exact, bufferSize]) inText
  · rw [drain, step]
    rfl

/-- A run comes to what its first step and the rest of it come to. -/
theorem Stepped.drains (stepped : Stepped p ahead text) (feeding : Feeding p)
    (memory : 0 < p.options.bufferSize) (nothing : ahead [] = [])
    (onward : ∀ q taken, Whole q → Feeding q → q.markChecked = true →
      Continues p.beginGeneration q → text = taken ++ q.toCome → taken ≠ [] →
      Drains q.afterRow q.afterRow.ahead q.toCome) : Drains p ahead text := by
  have bufferSize := feeding.toSupplied.bufferSize
  cases stepped with
  | row q whole feeding checked continues taken split first room step =>
    refine drains_of_row bufferSize whole continues split first room step
      (onward q taken whole feeding checked continues split ?_)
    rintro rfl
    exact List.cons_ne_nil _ _ ((first []).symm.trans nothing)
  | noMore q left feeding checked continues used same roomy step =>
    exact drains_of_noMore left checked continues used same
      (fun _ => last_size bufferSize memory nothing left continues same roomy) step
  | failed error q first rest continues some exceeds full step =>
    exact drains_of_failed bufferSize some exceeds full step

end

theorem drain_takes (p : Parser) (text : Bytes) (ready : p.status = .ready)
    (awaiting : Awaiting p text) (memory : 0 < p.options.bufferSize)
    (between : p.hasRecord = false) : Drains p p.ahead text := by
  refine (parseMore_reads ready awaiting).drains awaiting.feeding memory
    ((ahead_of_noRecord between []).trans (records_nil _)) ?_
  intro q taken whole feeding checked continues split progress
  have shorter : q.toCome.length < text.length := by
    have some := List.length_pos_iff.mpr progress
    rw [split, List.length_append]
    omega
  exact drain_takes q.afterRow q.toCome (continues.status.trans ready)
    (awaiting_afterRow whole feeding checked)
    (Nat.lt_of_lt_of_eq memory (congrArg Options.bufferSize continues.options).symm)
    whole.hasRecord_afterRow
termination_by text.length

end Parser

end Tabular.Csv
