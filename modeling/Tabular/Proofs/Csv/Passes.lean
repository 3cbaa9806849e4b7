import Tabular.Proofs.Csv.CutReads
import Tabular.Proofs.Csv.Generations

/-!
A call of a parser, one pass through its loops after another. A pass asks the reader once at most,
and is told what it answers; it calls the tokenizer once at most. Wherever the passes have led, what
the call comes to is still the same.
-/
namespace Tabular.Csv.Parser

variable {β : Type}

/-- Where a call stands: in the loop that fills the window for a byte-order mark, in the loop of a
step, in the loop of finishing, or behind them. -/
inductive Phase (β : Type) where
  | marking (p : Parser) (s : β)
  | seeking (p : Parser) (s : β)
  | flushing (p : Parser) (s : β)
  | returned (result : Except Error StepOutcome × Parser × β)

/-- What finishing comes to, from what its loop has come to. That it succeeds is told as that there
is no more input. -/
def conclude (flushed : Except Error Unit × Parser × β) : Except Error StepOutcome × Parser × β :=
  (flushed.1.map fun _ => .noMoreInput,
    { flushed.2.1 with status := statusFinished flushed.1 }, flushed.2.2)

def Call.result (call : Call β) (p : Parser) (s : β) : Except Error StepOutcome × Parser × β :=
  match call with
  | .parseMore handler => p.parseMore handler s
  | .finish handler => ((p.finish handler s).1.map fun _ => .noMoreInput, (p.finish handler s).2)

def Call.begin (call : Call β) (p : Parser) (s : β) : Phase β :=
  match call with
  | .parseMore _ =>
    match p.status with
    | .failed description => .returned (.error (.parse description), p, s)
    | .finished | .exhausted => .returned (.ok .noMoreInput, p, s)
    | .ready =>
      if p.markChecked then .seeking p.beginGeneration s else .marking p.beginGeneration s
  | .finish _ =>
    match p.status with
    | .finished => .returned (.ok .noMoreInput, p, s)
    | .failed description => .returned (.error (.parse description), p, s)
    | .ready | .exhausted => .flushing p.atFinish s

/-- One call of the reader. One that is interrupted changes nothing. -/
def ask (p : Parser) : ReadEvent → Except Error Unit × Parser
  | .interrupted => (.ok (), p)
  | event => (p.withReads [event]).fill

namespace Phase

def parser : Phase β → Parser
  | .marking p _ | .seeking p _ | .flushing p _ => p
  | .returned result => result.2.1

def withReads (reads : List ReadEvent) : Phase β → Phase β
  | .marking p s => .marking (p.withReads reads) s
  | .seeking p s => .seeking (p.withReads reads) s
  | .flushing p s => .flushing (p.withReads reads) s
  | .returned result => .returned (result.1, result.2.1.withReads reads, result.2.2)

@[simp] theorem parser_withReads (c : Phase β) (reads : List ReadEvent) :
    (c.withReads reads).parser = c.parser.withReads reads := by
  cases c <;> rfl

def isReturned : Phase β → Bool
  | .returned _ => true
  | _ => false

theorem exists_of_isReturned {c : Phase β} (ended : c.isReturned = true) :
    ∃ result, c = .returned result := by
  cases c with
  | marking p s | seeking p s | flushing p s => cases ended
  | returned result => exact ⟨result, rfl⟩

/-- The next pass calls the reader: too little has been read to go on, and its end is not known. -/
def asks : Phase β → Bool
  | .marking p _ => !p.atEnd && decide (p.window.filled < byteOrderMark.length)
  | .seeking p _ => p.window.pending.isEmpty && !p.atEnd
  | _ => false

theorem asks_marking_iff {p : Parser} {s : β} : (marking p s).asks = true ↔
    p.atEnd = false ∧ p.window.filled < byteOrderMark.length := by
  simp [asks]

theorem not_asks_marking {p : Parser} {s : β}
    (enough : p.atEnd = true ∨ byteOrderMark.length ≤ p.window.filled) :
    ¬ (marking p s).asks = true := by
  rw [asks_marking_iff]
  rintro ⟨open_, short⟩
  rcases enough with ended | full
  · exact Bool.false_ne_true (open_.symm.trans ended)
  · exact absurd short (Nat.not_lt.mpr full)

theorem asks_seeking_iff {p : Parser} {s : β} : (seeking p s).asks = true ↔
    p.atEnd = false ∧ p.window.pending = [] := by
  simp [asks, and_comm]

/-- The next pass calls the tokenizer: it advances, and a cell is open or can be begun. -/
def tokenizes : Phase β → Bool
  | .seeking p _ => !p.window.pending.isEmpty && (p.openCell p.atEnd).1
  | .flushing p _ => (p.openCell true).1
  | _ => false

theorem tokenizes_of_asks {c : Phase β} (asked : c.asks = true) : c.tokenizes = false := by
  cases c with
  | marking p s => rfl
  | seeking p s =>
    rw [tokenizes, (asks_seeking_iff.mp asked).2]
    rfl
  | flushing p s => cases asked
  | returned result => cases asked

def behindRead (again : Parser → Phase β) (s : β) : Except Error Unit × Parser → Phase β
  | (.error error, q) =>
    .returned (.error error, { q with status := .failed error.message }, s)
  | (.ok (), q) => again q

def behindAdvance (handler : RowHandler β) (s : β) : Except Error Progress × Parser → Phase β
  | (.error error, q) => .returned (handOver handler s (.error error, q))
  | (.ok .row, q) => .returned (handOver handler s (.ok .row, q))
  | (.ok .dataEnd, q) => .returned (handOver handler s (.ok .noMoreInput, q))
  | (.ok .field, q) | (.ok .needInput, q) => .seeking q s

def behindFlush (handler : RowHandler β) (s : β) : Except Error Progress × Parser → Phase β
  | (.error error, q) => .returned (conclude (.error error, q, s))
  | (.ok .row, q) =>
    match handler q.completedRow s with
    | (.error error, t) => .returned (conclude (.error error, q.afterRow, t))
    | (.ok (), t) => .flushing q.afterRow t
  | (.ok .dataEnd, q) => .returned (conclude (.ok (), q, s))
  | (.ok .field, q) | (.ok .needInput, q) => .flushing q s

/-- One pass. If it calls the reader, `event` is what that answers. -/
def pass (handler : RowHandler β) (event : ReadEvent) : Phase β → Phase β
  | .marking p s =>
    if (marking p s).asks then behindRead (.marking · s) s (p.ask event)
    else .seeking p.skipMark s
  | .seeking p s =>
    if (seeking p s).asks then behindRead (.seeking · s) s (p.ask event)
    else if p.window.pending.isEmpty then .returned (handOver handler s (.ok .noMoreInput, p))
    else behindAdvance handler s (p.advance p.atEnd)
  | .flushing p s => behindFlush handler s (p.advance true)
  | .returned result => .returned result

/-- What the call comes to from here, by the functions that run. -/
def rest (handler : RowHandler β) : Phase β → Except Error StepOutcome × Parser × β
  | .marking p s => handOver handler s (andThen p.fillMark fun _ q => q.skipMark.seekRow)
  | .seeking p s => handOver handler s p.seekRow
  | .flushing p s => conclude (p.flush handler s)
  | .returned result => result

end Phase

/-! ## A call begins as it runs -/

theorem look_eq (p : Parser) : p.look = if p.markChecked = true then p.seekRow
    else andThen p.fillMark fun _ q => q.skipMark.seekRow := by
  unfold look checkMark
  by_cases checked : p.markChecked = true
  · rw [if_pos checked, if_pos checked]
  · rw [if_neg checked, if_neg checked]
    rcases p.fillMark with ⟨error | _, q⟩ <;> rfl

theorem Call.begin_rest (call : Call β) (p : Parser) (s : β) :
    (call.begin p s).rest call.handler = call.result p s := by
  unfold Call.begin Call.result
  cases call with
  | parseMore handler =>
    dsimp only
    cases status : p.status with
    | ready =>
      rw [parseMore_look handler status, look_eq, beginGeneration_markChecked]
      dsimp only
      split <;> rfl
    | exhausted | finished | failed description =>
      unfold Parser.parseMore
      rw [status]
      rfl
  | finish handler =>
    dsimp only
    cases status : p.status with
    | ready | exhausted =>
      rw [finish_open handler (by simp [status]) rfl]
      rfl
    | finished | failed description =>
      unfold Parser.finish
      rw [status]
      rfl

theorem Call.begin_withReads (call : Call β) (p : Parser) (s : β) (reads : List ReadEvent) :
    call.begin (p.withReads reads) s = (call.begin p s).withReads reads := by
  unfold Call.begin
  rw [withReads_status, atFinish_withReads, withReads_markChecked]
  cases call with
  | parseMore handler =>
    dsimp only
    cases p.status with
    | ready =>
      dsimp only
      split <;> rfl
    | exhausted | finished | failed description => rfl
  | finish handler => cases p.status <;> rfl

/-! ## Calls of the reader -/

theorem fill_interrupted (p : Parser) (later : List ReadEvent) :
    (p.withReads (.interrupted :: later)).fill = (p.withReads later).fill := by
  have asked := p.source.readBy_reads_irrelevant (p.window.recycled.request p.options.readChunk)
  unfold fill Window.refill Source.read withReads
  dsimp only
  rw [asked (.interrupted :: later) (.interrupted :: later), asked later later]
  rfl

theorem ask_eq_fill (p : Parser) {event : ReadEvent} (answers : event ≠ .interrupted) :
    p.ask event = (p.withReads [event]).fill := by
  cases event with
  | interrupted => exact absurd rfl answers
  | atMost count => rfl
  | failed detail => rfl

theorem fill_ask (p : Parser) {event : ReadEvent} (later : List ReadEvent)
    (answers : event ≠ .interrupted) : (p.withReads (event :: later)).fill =
      ((p.ask event).1, (p.ask event).2.withReads later) := by
  cases event with
  | interrupted => exact absurd rfl answers
  | atMost count => rfl
  | failed detail => rfl

/-! ## A pass changes nothing of what a call comes to -/

@[simp] theorem handOver_withReads (handler : RowHandler β) (s : β)
    (outcome : Except Error StepOutcome) (p : Parser) (reads : List ReadEvent) :
    handOver handler s (outcome, p.withReads reads) =
      ((handOver handler s (outcome, p)).1, (handOver handler s (outcome, p)).2.1.withReads reads,
        (handOver handler s (outcome, p)).2.2) := by
  rcases outcome with error | _ | _
  · rfl
  · dsimp only [handOver]
    rw [completedRow_withReads]
    rcases handler p.completedRow s with ⟨error | _, t⟩ <;> rfl
  · rfl

theorem flush_of_flushRow {p q : Parser} (same : p.flushRow = q.flushRow) (handler : RowHandler β)
    (s : β) : p.flush handler s = q.flush handler s := by
  rw [flush, flush.eq_def handler q, same]

theorem fillMark_of_short {p : Parser} (open_ : p.atEnd = false)
    (short : p.window.filled < byteOrderMark.length) :
    p.fillMark = andThen p.fill fun _ q => q.fillMark := by
  rw [fillMark_eq, if_neg (by simp [open_]), if_pos short]

theorem fillMark_of_enough {p : Parser}
    (enough : p.atEnd = true ∨ byteOrderMark.length ≤ p.window.filled) :
    p.fillMark = (.ok (), p) := by
  rw [fillMark_eq]
  rcases enough with ended | full
  · rw [if_pos ended]
  · rw [if_neg (Nat.not_lt.mpr full), ite_self]

theorem seekRow_of_used {p : Parser} (used : p.window.pending = []) (open_ : p.atEnd = false) :
    p.seekRow = andThen p.fill fun _ q => q.seekRow := by
  rcases filled : p.fill with ⟨error | _, q⟩
  · exact seekRow_of_unread used open_ filled
  · exact (seekRow_of_fill used open_ filled).symm

namespace Phase

inductive Passes (handler : RowHandler β) (event : ReadEvent) : Phase β → Phase β → Prop where
  | readMark (p : Parser) (s : β) (open_ : p.atEnd = false)
      (short : p.window.filled < byteOrderMark.length) :
      Passes handler event (.marking p s) (behindRead (.marking · s) s (p.ask event))
  | marked (p : Parser) (s : β) (enough : p.atEnd = true ∨ byteOrderMark.length ≤ p.window.filled) :
      Passes handler event (.marking p s) (.seeking p.skipMark s)
  | read (p : Parser) (s : β) (open_ : p.atEnd = false) (used : p.window.pending = []) :
      Passes handler event (.seeking p s) (behindRead (.seeking · s) s (p.ask event))
  | noInput (p : Parser) (s : β) (ended : p.atEnd = true) (used : p.window.pending = []) :
      Passes handler event (.seeking p s) (.returned (handOver handler s (.ok .noMoreInput, p)))
  | advance (p : Parser) (s : β) (waits : p.window.pending ≠ []) :
      Passes handler event (.seeking p s) (behindAdvance handler s (p.advance p.atEnd))
  | flush (p : Parser) (s : β) :
      Passes handler event (.flushing p s) (behindFlush handler s (p.advance true))
  | returned (result : Except Error StepOutcome × Parser × β) :
      Passes handler event (.returned result) (.returned result)

theorem pass_passes (c : Phase β) (handler : RowHandler β) (event : ReadEvent) :
    Passes handler event c (c.pass handler event) := by
  cases c with
  | marking p s =>
    by_cases asked : (marking p s).asks = true
    · rw [pass, if_pos asked]
      obtain ⟨open_, short⟩ := asks_marking_iff.mp asked
      exact .readMark p s open_ short
    · rw [pass, if_neg asked]
      refine .marked p s ?_
      cases ended : p.atEnd with
      | true => exact Or.inl rfl
      | false =>
        refine Or.inr (Nat.le_of_not_lt fun short => asked ?_)
        exact asks_marking_iff.mpr ⟨ended, short⟩
  | seeking p s =>
    by_cases asked : (seeking p s).asks = true
    · rw [pass, if_pos asked]
      obtain ⟨open_, used⟩ := asks_seeking_iff.mp asked
      exact .read p s open_ used
    · rw [pass, if_neg asked]
      by_cases used : p.window.pending = []
      · rw [if_pos (List.isEmpty_iff.mpr used)]
        exact .noInput p s
          (Bool.of_not_eq_false fun open_ => asked (asks_seeking_iff.mpr ⟨open_, used⟩)) used
      · rw [if_neg fun empty => used (List.isEmpty_iff.mp empty)]
        exact .advance p s used
  | flushing p s => exact .flush p s
  | returned result => exact .returned result

/-- What the next pass uses up of the reads to come, if `event` is the first of them. -/
def used (c : Phase β) (event : ReadEvent) : List ReadEvent := if c.asks then [event] else []

variable {handler : RowHandler β}

theorem rest_behindRead (again : Parser → Phase β)
    (loop : Except Error Unit × Parser → Except Error StepOutcome × Parser) (p : Parser) (s : β)
    (event : ReadEvent) (later : List ReadEvent)
    (fails : ∀ error q, loop (.error error, q) = (.error error, q))
    (goes : ∀ q, ((again q).withReads later).rest handler =
      handOver handler s (loop (.ok (), q.withReads later)))
    (asked : ∀ reads, ((again p).withReads reads).rest handler =
      handOver handler s (loop (p.withReads reads).fill)) :
    ((behindRead again s (p.ask event)).withReads later).rest handler =
      ((again p).withReads (event :: later)).rest handler := by
  rw [asked]
  by_cases interrupted : event = .interrupted
  · subst interrupted
    rw [fill_interrupted, ← asked]
    rfl
  · rw [fill_ask p later interrupted]
    rcases p.ask event with ⟨error | _, q⟩
    · rw [fails]
      rfl
    · exact goes q

theorem rest_behindAdvance (p : Parser) (s : β) (later : List ReadEvent)
    (waits : p.window.pending ≠ []) :
    ((behindAdvance handler s (p.advance p.atEnd)).withReads later).rest handler =
      ((seeking p s).withReads later).rest handler := by
  show _ = handOver handler s (p.withReads later).seekRow
  rw [seekRow_of_waits (p := p.withReads later) waits, withReads_atEnd, advance_withReads]
  rcases p.advance p.atEnd with ⟨error | _ | _ | _ | _, q⟩
  · rfl
  · rfl
  · exact (handOver_withReads handler s (.ok .row) q later).symm
  · rfl
  · rfl

theorem rest_behindFlush (p : Parser) (s : β) (later : List ReadEvent) :
    ((behindFlush handler s (p.advance true)).withReads later).rest handler =
      ((flushing p s).withReads later).rest handler := by
  have looked := flushRow_eq (p.withReads later)
  rw [advance_withReads] at looked
  show _ = conclude ((p.withReads later).flush handler s)
  rcases advanced : p.advance true with ⟨error | _ | _ | _ | _, q⟩ <;> rw [advanced] at looked
  · rw [Parser.flush, looked]
    rfl
  · rw [flush_of_flushRow looked]
    rfl
  · rw [Parser.flush, looked]
    dsimp only [goOn, behindFlush]
    rw [completedRow_withReads]
    rcases handler q.completedRow s with ⟨error | _, t⟩ <;> rfl
  · rw [flush_of_flushRow looked]
    rfl
  · rw [Parser.flush, looked]
    rfl

theorem rest_pass (c : Phase β) (event : ReadEvent) (later : List ReadEvent) :
    ((c.pass handler event).withReads later).rest handler =
      (c.withReads (c.used event ++ later)).rest handler := by
  have passes := c.pass_passes handler event
  generalize c.pass handler event = d at passes ⊢
  unfold used
  cases passes with
  | readMark p s open_ short =>
    rw [if_pos (asks_marking_iff.mpr ⟨open_, short⟩)]
    refine rest_behindRead (.marking · s)
      (fun found => andThen (andThen found fun _ q => q.fillMark) fun _ q =>
        q.skipMark.seekRow) p s event later (fun _ _ => rfl) (fun _ => rfl) fun reads => ?_
    show handOver handler s (andThen (p.withReads reads).fillMark _) = _
    rw [fillMark_of_short (p := p.withReads reads) open_ short]
  | marked p s enough =>
    rw [if_neg (not_asks_marking enough)]
    show _ = handOver handler s (andThen (p.withReads later).fillMark _)
    rw [fillMark_of_enough (p := p.withReads later) enough]
    rfl
  | read p s open_ waits =>
    rw [if_pos (asks_seeking_iff.mpr ⟨open_, waits⟩)]
    refine rest_behindRead (.seeking · s) (fun found => andThen found fun _ q => q.seekRow) p s
      event later (fun _ _ => rfl) (fun _ => rfl) fun reads => ?_
    show handOver handler s (p.withReads reads).seekRow = _
    rw [seekRow_of_used (p := p.withReads reads) waits open_]
  | noInput p s ended waits =>
    rw [if_neg (by simp [asks, ended])]
    show _ = handOver handler s (p.withReads later).seekRow
    rw [seekRow_of_ended (p := p.withReads later) waits ended]
    rfl
  | advance p s waits =>
    rw [if_neg (by simp [asks, waits])]
    exact rest_behindAdvance p s later waits
  | flush p s => exact rest_behindFlush p s later
  | returned result => rfl

end Phase

end Tabular.Csv.Parser
