import Tabular.Proofs.Csv.UsedInput
import Tabular.Proofs.Table.Backing
import Tabular.Proofs.Table.Declaring

/-!
One row of lookahead. Whatever is called on a table, and whatever its source does, the row of data
that is kept is the one the cursor is at: it can be read, and where there is none the session is
over. Its header stays as it was when the table was connected.
-/
namespace Tabular.Table

open Csv

/-! ## Steps of a session -/

variable {s : Session} {caches : Caches} {p : Parser}

inductive StepsTo (s : Session) (caches : Caches) :
    Except Error Advance × Session × Caches → Prop where
  | row (q : Parser) (row : Row) (ready : q.status = .ready) (shows_ : Shows q row) :
      StepsTo s caches (.ok .progressed, s.after q ((s.intake caches).received row) s.status,
        ((s.intake caches).received row).caches)
  | noMore (q : Parser) (layout : q.Layout) (exhausted : q.status = .exhausted)
      (used : q.window.pending = []) :
      StepsTo s caches (.ok .exhausted, s.after q (s.intake caches) .exhausted, caches)
  | failed (error : Error) (q : Parser) (layout : q.Layout) : StepsTo s caches
      (.error error, s.after q (s.intake caches) (.failed error.message), caches)

theorem stepOnce_steps (parser : s.parser = some p) (ready : p.status = .ready)
    (layout : p.Layout) (caches : Caches) : StepsTo s caches (s.stepOnce caches) := by
  unfold Session.stepOnce
  rw [parser]
  dsimp only
  cases Parser.parseMore_takes ready layout with
  | row q layout completed continues step =>
    have handled : Intake.receive q.completedRow { sink := s.sink, nextId := s.nextId, caches } =
        (.ok (), (s.intake caches).received q.completedRow) := receive_eq _ _
    rw [step, handled]
    exact .row q.afterRow q.completedRow (continues.status.trans ready)
      (shows_afterRow layout completed)
  | noMore q layout used step =>
    rw [step]
    exact .noMore { q with status := .exhausted } { layout with } rfl used
  | failed error q layout step =>
    rw [step]
    exact .failed error { q with status := .failed error.message } { layout with }

inductive FinishesTo (s : Session) (caches : Caches) :
    Except Error Unit × Session × Caches → Prop where
  | none (q : Parser) (layout : q.Layout) : FinishesTo s caches
      (.ok (), { s.after q (s.intake caches) s.status with finished := true }, caches)
  | row (q : Parser) (row : Row) (shows_ : Shows q row) : FinishesTo s caches
      (.ok (), { s.after q ((s.intake caches).received row) s.status with finished := true },
        ((s.intake caches).received row).caches)
  | failed (error : Error) (q : Parser) (layout : q.Layout) : FinishesTo s caches
      (.error error, { s.after q (s.intake caches) (.failed error.message) with finished := true },
        caches)

theorem finish_finishes (unfinished : s.finished = false) (parser : s.parser = some p)
    (layout : p.Layout) (exhausted : p.status = .exhausted) (used : p.window.pending = [])
    (caches : Caches) : FinishesTo s caches (s.finish caches) := by
  have finished := Parser.finish_used receive_takes layout exhausted used (s.intake caches)
  unfold Session.finish
  rw [unfinished, if_neg Bool.false_ne_true, parser]
  dsimp only
  rw [← Session.intake]
  rcases result : p.finish Intake.receive (s.intake caches) with ⟨outcome, q, i⟩
  rw [result] at finished
  cases finished with
  | none q laid => exact .none q laid
  | row q row laid keeps current => exact .row q row ⟨laid, keeps, current⟩
  | failed error q laid => exact .failed error q laid

/-! ## What a session keeps -/

/-- What the cache of data holds: nothing, or one row that can be read. -/
inductive Holds (s : Session) (data : RowCache) : Prop where
  | none (empty : data = {})
  | row (p : Parser) (row : Row) (id : Int) (parser : s.parser = some p) (shows_ : Shows p row)
      (number : 1 ≤ id) (working : ∀ description, s.status ≠ .failed description)
      (head : data = { rows := #[.borrowed row id] })

/-- A session that looks ahead by one row. -/
structure Ahead (header : RowCache) (s : Session) (caches : Caches) : Prop where
  layout : ∀ p, s.parser = some p → p.Layout
  ready : s.status = .ready → ∃ p, s.parser = some p ∧ p.status = .ready
  spent : s.status = .exhausted → s.finished = true ∨ s.parser = none
  sink : s.sink ≠ .header
  nextId : 1 ≤ s.nextId
  same : caches.header = header
  kept : s.parser ≠ none → header.isEmpty = false
  data : Holds s caches.data

/-- A session with a parser that is about to look for a row of data. -/
structure Seeks (header : RowCache) (s : Session) (caches : Caches) (p : Parser) : Prop where
  parser : s.parser = some p
  layout : p.Layout
  sink : s.sink ≠ .header
  nextId : 1 ≤ s.nextId
  same : caches.header = header
  kept : header.isEmpty = false
  none : caches.data = {}

/-- A row is in the cache of data, or the session is over. -/
def Settled (s : Session) (caches : Caches) : Prop :=
  caches.data.isEmpty = false ∨ s.isDone = true

structure Pulls (header : RowCache) (result : Except Error Unit × Session × Caches) : Prop where
  ahead : Ahead header result.2.1 result.2.2
  settled : Settled result.2.1 result.2.2

variable {header : RowCache}

/-- Only the first row of a parse may be passed over, and none is taken for the header. -/
theorem Seeks.received (seeks : Seeks header s caches p) (row : Row) :
    (s.sink = .data ∧ (s.intake caches).received row = { s.intake caches with
        nextId := s.nextId + 1, caches.data := { rows := #[.borrowed row s.nextId] } }) ∨
      (s.sink = .skipHeader ∧
        (s.intake caches).received row = { s.intake caches with sink := .data }) := by
  cases sink : s.sink with
  | header => exact absurd sink seeks.sink
  | skipHeader => exact Or.inr ⟨rfl, received_skipHeader sink row⟩
  | data =>
    refine Or.inl ⟨rfl, ?_⟩
    have added : (s.intake caches).caches.data.append (.borrowed row s.nextId) =
        { rows := #[.borrowed row s.nextId] } := by
      rw [show (s.intake caches).caches.data = {} from seeks.none]
      rfl
    rw [received_data (i := s.intake caches) sink row, ← added]
    rfl

theorem Seeks.spent (seeks : Seeks header s caches p) {q : Parser} (laid : q.Layout) (sink : Sink)
    (passed : sink ≠ .header) {status : SessionStatus} (done : status ≠ .ready) (finished : Bool)
    (complete : status = .exhausted → finished = true) :
    Ahead header { s with parser := some q, sink, status, finished } caches where
  layout := by
    rintro r ⟨rfl⟩
    exact laid
  ready ready := absurd ready done
  spent exhausted := Or.inl (complete exhausted)
  sink := passed
  nextId := seeks.nextId
  same := seeks.same
  kept _ := seeks.kept
  data := .none seeks.none

theorem Seeks.row (seeks : Seeks header s caches p) {q : Parser} {row : Row}
    (shows_ : Shows q row) {status : SessionStatus} (ready : status = .ready → q.status = .ready)
    (working : ∀ description, status ≠ .failed description) (finished : Bool)
    (complete : status = .exhausted → finished = true) :
    Ahead header
      { s with parser := some q, sink := .data, nextId := s.nextId + 1, status, finished }
      { caches with data := { rows := #[.borrowed row s.nextId] } } where
  layout := by
    rintro r ⟨rfl⟩
    exact shows_.layout
  ready is := ⟨q, rfl, ready is⟩
  spent exhausted := Or.inl (complete exhausted)
  sink := Sink.noConfusion
  nextId := by
    have before := seeks.nextId
    show (1 : Int) ≤ s.nextId + 1
    omega
  same := seeks.same
  kept _ := seeks.kept
  data := .row q row s.nextId rfl shows_ seeks.nextId working rfl

theorem isDone_of_ne {s : Session} (done : s.status ≠ .ready) : s.isDone = true :=
  bne_iff_ne.mpr done

theorem Seeks.finish (seeks : Seeks header s caches p) (exhausted : p.status = .exhausted)
    (used : p.window.pending = []) (status : s.status = .exhausted) :
    Pulls header (s.finish caches) := by
  have done : s.status ≠ .ready := by
    rw [status]
    exact SessionStatus.noConfusion
  cases finished : s.finished with
  | true =>
    unfold Session.finish
    rw [if_pos finished]
    have spent := seeks.spent seeks.layout s.sink seeks.sink done true fun _ => rfl
    rw [← seeks.parser, ← finished] at spent
    exact ⟨spent, Or.inr (isDone_of_ne done)⟩
  | false =>
    have finishing := finish_finishes finished seeks.parser seeks.layout exhausted used caches
    rcases result : s.finish caches with ⟨outcome, s', caches'⟩
    rw [result] at finishing
    cases finishing with
    | none q laid =>
      exact ⟨seeks.spent laid s.sink seeks.sink done true fun _ => rfl, Or.inr (isDone_of_ne done)⟩
    | failed error q laid =>
      exact ⟨seeks.spent laid s.sink seeks.sink SessionStatus.noConfusion true fun _ => rfl,
        Or.inr rfl⟩
    | row q row shows_ =>
      -- The last row of an input may also be its first, which is passed over after a rewind.
      rcases seeks.received row with ⟨sink, received⟩ | ⟨sink, received⟩ <;> rw [received]
      · have working : ∀ description, s.status ≠ .failed description := by
          rw [status]
          exact fun _ => SessionStatus.noConfusion
        have ahead := seeks.row shows_ (fun ready => absurd ready done) working true fun _ => rfl
        rw [← sink] at ahead
        exact ⟨ahead, Or.inl rfl⟩
      · exact ⟨seeks.spent shows_.layout .data Sink.noConfusion done true fun _ => rfl,
          Or.inr (isDone_of_ne done)⟩

theorem Seeks.pull_data (seeks : Seeks header s caches p) (ready : p.status = .ready)
    (status : s.status = .ready) (sink : s.sink = .data) : Pulls header (s.pull caches) := by
  have steps := stepOnce_steps seeks.parser ready seeks.layout caches
  rw [Session.pull, advance_data status sink]
  rcases stepped : s.stepOnce caches with ⟨outcome, s', caches'⟩
  rw [stepped] at steps
  cases steps with
  | row q row ready' shows_ =>
    rcases seeks.received row with ⟨-, received⟩ | ⟨passed, -⟩
    · have working : ∀ description, s.status ≠ .failed description := by
        rw [status]
        exact fun _ => SessionStatus.noConfusion
      have ahead := seeks.row shows_ (fun _ => ready') working s.finished fun exhausted => by
        rw [status] at exhausted
        cases exhausted
      rw [received]
      rw [← sink] at ahead
      exact ⟨ahead, Or.inl rfl⟩
    · rw [sink] at passed
      cases passed
  | noMore q laid exhausted used =>
    exact Seeks.finish { seeks with parser := rfl, layout := laid } exhausted used rfl
  | failed error q laid =>
    exact ⟨seeks.spent laid s.sink seeks.sink SessionStatus.noConfusion s.finished
      SessionStatus.noConfusion, Or.inr rfl⟩

theorem Seeks.pull (seeks : Seeks header s caches p) (ready : p.status = .ready)
    (status : s.status = .ready) : Pulls header (s.pull caches) := by
  cases sink : s.sink with
  | header => exact absurd sink seeks.sink
  | data => exact seeks.pull_data ready status sink
  | skipHeader =>
    have steps := stepOnce_steps seeks.parser ready seeks.layout caches
    unfold Session.pull Session.advance
    rw [status, sink]
    dsimp only
    rcases stepped : s.stepOnce caches with ⟨outcome, s', caches'⟩
    rw [stepped] at steps
    cases steps with
    | row q row ready' shows_ =>
      have received := received_skipHeader (i := s.intake caches) sink row
      rw [received]
      -- What is looked for now is a row of data, and nothing has been kept so far.
      have later : Seeks header (s.after q { s.intake caches with sink := .data } s.status) caches q :=
        { seeks with parser := rfl, layout := shows_.layout, sink := Sink.noConfusion }
      have onward := advance_data (s := s.after q { s.intake caches with sink := .data } s.status)
        status rfl caches
      have pulls := later.pull_data ready' status rfl
      rw [Session.pull, onward] at pulls
      exact pulls
    | noMore q laid exhausted used =>
      exact Seeks.finish { seeks with parser := rfl, layout := laid } exhausted used rfl
    | failed error q laid =>
      exact ⟨seeks.spent laid s.sink seeks.sink SessionStatus.noConfusion s.finished
        SessionStatus.noConfusion, Or.inr rfl⟩

theorem Ahead.pull (ahead : Ahead header s caches) (none : caches.data = {}) :
    Pulls header (s.pull caches) := by
  cases status : s.status with
  | ready =>
    obtain ⟨p, parser, ready⟩ := ahead.ready status
    have seeks : Seeks header s caches p := { ahead with
      parser, none, layout := ahead.layout p parser
      kept := ahead.kept (by rw [parser]; exact Option.some_ne_none p) }
    exact seeks.pull ready status
  | failed description =>
    have done : s.isDone = true := isDone_of_ne (by rw [status]; exact SessionStatus.noConfusion)
    unfold Session.pull Session.advance
    rw [status]
    exact ⟨ahead, Or.inr done⟩
  | exhausted =>
    have done : s.isDone = true := isDone_of_ne (by rw [status]; exact SessionStatus.noConfusion)
    unfold Session.pull Session.advance
    rw [status]
    dsimp only
    unfold Session.finish
    split
    · exact ⟨ahead, Or.inr done⟩
    · rename_i unfinished
      -- Unfinished though exhausted is only a table that was disconnected.
      rcases ahead.spent status with finished | gone
      · exact absurd finished unfinished
      · split
        · exact ⟨{ ahead with spent := fun _ => Or.inl rfl, data := .none none }, Or.inr done⟩
        · rename_i some
          rw [gone] at some
          cases some

/-! ## Beginning again -/

theorem restart_inv {q : Parser} (restarted : s.restart = .ok q) :
    q.Layout ∧ q.status = .ready ∧ s.parser ≠ none := by
  unfold Session.restart at restarted
  split at restarted
  · cases restarted
  · rename_i p parser
    split at restarted
    · cases restarted
    · obtain ⟨-, rfl⟩ := Parser.new_inv restarted
      refine ⟨Parser.layout_initial _ _, rfl, ?_⟩
      rw [parser]
      exact Option.some_ne_none p

theorem Ahead.rewind (ahead : Ahead header s caches) (none : caches.data = {}) :
    Ahead header (s.rewind (!caches.header.isEmpty)).2 caches ∧
      ((s.rewind (!caches.header.isEmpty)).1 ≠ .ok () →
        (s.rewind (!caches.header.isEmpty)).2.isDone = true) := by
  unfold Session.rewind
  rcases restarted : s.restart with error | q
  · refine ⟨?_, fun _ => rfl⟩
    exact { ahead with
      layout := fun _ some => by cases some
      ready := fun ready => by cases ready
      spent := fun exhausted => by cases exhausted
      nextId := Int.le_refl 1
      kept := fun some => absurd rfl some
      data := .none none }
  · obtain ⟨layout, ready, had⟩ := restart_inv restarted
    have cached : caches.header.isEmpty = false := by
      rw [ahead.same]
      exact ahead.kept had
    refine ⟨?_, fun failed => absurd rfl failed⟩
    exact {
      layout := fun r is => by
        cases is
        exact layout
      ready := fun _ => ⟨q, rfl, ready⟩
      spent := fun exhausted => by cases exhausted
      sink := by
        rw [cached]
        exact Sink.noConfusion
      nextId := Int.le_refl 1
      same := ahead.same
      kept := fun _ => ahead.kept had
      data := .none none }

/-! ## Calls of a table -/

inductive Operation where
  | openCursor
  | closeCursor
  | filter
  | next
  | column (context : Host.ColumnContext) (index : Int)
  | rowid
  | atEnd
  /-- The bytes behind the table are replaced. -/
  | rewrite (content : Bytes)
  | disconnect

namespace Operation

def run : Operation → State → State
  | .openCursor, t => t.openCursor.2
  | .closeCursor, t => t.closeCursor
  | .filter, t => t.filter.2
  | .next, t => t.next.2
  | .column _ _, t | .rowid, t | .atEnd, t => t
  | .rewrite content, t => t.sourceRewritten content
  | .disconnect, t => t.disconnect

def Looks (op : Operation) : Prop := op = .filter ∨ op = .next

end Operation

namespace State

def run (t : State) (ops : List Operation) : State := ops.foldl (fun t op => op.run t) t

def LooksAhead (t : State) (header : RowCache) : Prop := Ahead header t.session t.caches

def IsSettled (t : State) : Prop := Settled t.session t.caches

variable {t : State}

theorem pull_looksAhead (ahead : t.LooksAhead header) (none : t.caches.data = {}) :
    t.pull.2.LooksAhead header ∧ t.pull.2.IsSettled :=
  ⟨(Ahead.pull ahead none).ahead, (Ahead.pull ahead none).settled⟩

theorem filter_looksAhead (ahead : t.LooksAhead header) :
    t.filter.2.LooksAhead header ∧ t.filter.2.IsSettled := by
  have emptied : Ahead header t.session { t.caches with data := {} } := { ahead with data := .none rfl }
  obtain ⟨rewound, failing⟩ := emptied.rewind rfl
  unfold State.filter
  dsimp only
  rcases result : t.session.rewind (!t.caches.header.isEmpty) with ⟨error | _, session⟩
  · rw [result] at rewound failing
    exact ⟨rewound, Or.inr (failing fun done => by cases done)⟩
  · rw [result] at rewound
    exact pull_looksAhead (t := { t with caches.data := {}, session }) rewound rfl

theorem next_looksAhead (ahead : t.LooksAhead header) :
    t.next.2.LooksAhead header ∧ t.next.2.IsSettled := by
  have popped : t.caches.data.pop = {} := by
    cases ahead.data with
    | none empty =>
      rw [empty]
      rfl
    | row p row id parser shows_ number working head =>
      rw [head]
      rfl
  have emptied : Ahead header t.session { t.caches with data := {} } := { ahead with data := .none rfl }
  unfold State.next
  dsimp only
  rw [popped, if_pos RowCache.isEmpty_empty]
  exact pull_looksAhead (t := { t with caches.data := {} }) emptied rfl

theorem sourceRewritten_looksAhead (ahead : t.LooksAhead header) (content : Bytes) :
    (t.sourceRewritten content).LooksAhead header where
  layout := by
    intro q is
    obtain ⟨p, parser, rfl⟩ := Option.map_eq_some_iff.mp is
    exact { ahead.layout p parser with }
  ready := by
    intro status
    obtain ⟨p, parser, ready⟩ := ahead.ready status
    exact ⟨_, Option.map_eq_some_iff.mpr ⟨p, parser, rfl⟩, ready⟩
  spent exhausted := (ahead.spent exhausted).imp id Option.map_eq_none_iff.mpr
  sink := ahead.sink
  nextId := ahead.nextId
  same := ahead.same
  kept some := ahead.kept fun none => some (Option.map_eq_none_iff.mpr none)
  data := by
    cases ahead.data with
    | none empty => exact .none empty
    | row p row id parser shows_ number working head =>
      exact .row _ row id (Option.map_eq_some_iff.mpr ⟨p, parser, rfl⟩)
        ⟨{ shows_.layout with }, { shows_.keeps with }, shows_.current⟩ number working head

theorem disconnect_looksAhead (ahead : t.LooksAhead header) : t.disconnect.LooksAhead {} where
  layout _ some := by cases some
  ready ready := by cases ready
  spent _ := Or.inr rfl
  sink := ahead.sink
  nextId := ahead.nextId
  same := rfl
  kept some := absurd rfl some
  data := .none rfl

/-- Every operation looks ahead, and only a disconnect lets go of the header. -/
theorem run_looksAhead (ahead : t.LooksAhead header) (op : Operation) :
    ∃ header', (op.run t).LooksAhead header' ∧ (op ≠ .disconnect → header' = header) := by
  cases op with
  | openCursor =>
    refine ⟨header, ?_, fun _ => rfl⟩
    show t.openCursor.2.LooksAhead header
    unfold State.openCursor
    split
    · exact ahead
    · exact ahead
  | closeCursor => exact ⟨header, ahead, fun _ => rfl⟩
  | filter => exact ⟨header, (filter_looksAhead ahead).1, fun _ => rfl⟩
  | next => exact ⟨header, (next_looksAhead ahead).1, fun _ => rfl⟩
  | column => exact ⟨header, ahead, fun _ => rfl⟩
  | rowid => exact ⟨header, ahead, fun _ => rfl⟩
  | atEnd => exact ⟨header, ahead, fun _ => rfl⟩
  | rewrite content => exact ⟨header, sourceRewritten_looksAhead ahead content, fun _ => rfl⟩
  | disconnect => exact ⟨{}, disconnect_looksAhead ahead, fun other => absurd rfl other⟩

/-- What is settled stays so, and whatever looks for a row settles it. -/
theorem run_settled (ahead : t.LooksAhead header) (op : Operation)
    (looked : t.IsSettled ∨ op.Looks) : (op.run t).IsSettled := by
  rcases looked with settled | rfl | rfl
  · cases op with
    | filter => exact (filter_looksAhead ahead).2
    | next => exact (next_looksAhead ahead).2
    | disconnect => exact Or.inr rfl
    | openCursor =>
      show t.openCursor.2.IsSettled
      unfold State.openCursor
      split <;> exact settled
    | closeCursor | column | rowid | atEnd | rewrite => exact settled
  · exact (filter_looksAhead ahead).2
  · exact (next_looksAhead ahead).2

theorem runs_looksAhead (ahead : t.LooksAhead header) (ops : List Operation) :
    ∃ header', (t.run ops).LooksAhead header' ∧ (Operation.disconnect ∉ ops → header' = header) := by
  -- The header that is kept may change on the way, at a disconnect, so it is general here.
  induction ops generalizing t header with
  | nil => exact ⟨header, ahead, fun _ => rfl⟩
  | cons op rest ih =>
    obtain ⟨between, first, kept⟩ := run_looksAhead ahead op
    obtain ⟨header', last, kept'⟩ := ih first
    refine ⟨header', last, fun staying => ?_⟩
    rw [List.mem_cons, not_or] at staying
    exact (kept' staying.2).trans (kept (Ne.symm staying.1))

theorem runs_settled (ahead : t.LooksAhead header) (ops : List Operation)
    (looked : t.IsSettled ∨ ∃ op ∈ ops, op.Looks) : (t.run ops).IsSettled := by
  induction ops generalizing t header with
  | nil => exact looked.resolve_right fun ⟨_, member, _⟩ => absurd member List.not_mem_nil
  | cons op rest ih =>
    obtain ⟨between, first, -⟩ := run_looksAhead ahead op
    apply ih first
    rcases looked with settled | ⟨other, member, looks⟩
    · exact Or.inl (run_settled ahead op (Or.inl settled))
    · rcases List.mem_cons.mp member with rfl | later
      · exact Or.inl (run_settled ahead other (Or.inr looks))
      · exact Or.inr ⟨other, later, looks⟩

/-! ## What is seen -/

theorem column_ok (ahead : t.LooksAhead header) (context : Host.ColumnContext) (index : Int) :
    ∃ shown, t.column context index = .ok shown := by
  unfold State.column
  split
  · exact ⟨_, rfl⟩
  · have peeked : ∃ found, t.caches.data.peek index.toNat t.session.resolve = .ok found := by
      cases ahead.data with
      | none empty =>
        rw [empty]
        exact ⟨none, rfl⟩
      | row p row id parser shows_ number working head =>
        have resolve : t.session.resolve = p.resolve := by
          unfold Session.resolve
          rw [parser]
        rw [head, resolve]
        exact ⟨_, shows_.cell id index.toNat⟩
    obtain ⟨found, peeked⟩ := peeked
    rw [peeked]
    cases found <;> exact ⟨_, rfl⟩

theorem current_of_settled (ahead : t.LooksAhead header) (settled : t.IsSettled)
    (going : t.atEnd = false) :
    ∃ row, t.caches.data.head? = some row ∧ t.rowid = row.id ∧ 1 ≤ row.id := by
  cases ahead.data with
  | none empty =>
    have done : t.session.isDone = true := by
      rcases settled with some | done
      · rw [empty] at some
        cases some
      · exact done
    rw [State.atEnd, empty, done] at going
    cases going
  | row p row id parser shows_ number working head =>
    refine ⟨.borrowed row id, ?_, ?_, number⟩
    · rw [head]
      rfl
    · rw [State.rowid, head]
      rfl

end State

/-! ## From the start -/

theorem received_header {i : Intake} (sink : i.sink = .header) (row : Row) :
    i.received row = { i with
      sink := .data, caches.header := i.caches.header.append (.owned row 0) } := by
  unfold Intake.received Intake.receive
  rw [sink]

structure Begins (s : Session) (p : Parser) : Prop where
  parser : s.parser = some p
  layout : p.Layout
  ready : p.status = .ready
  sink : s.sink = .header
  status : s.status = .ready
  unfinished : s.finished = false
  nextId : s.nextId = 1

theorem Begins.received {first : Session} (begins : Begins first p) {q : Parser} {row : Row}
    {cells : List Cell} (shows_ : Shows q row) {status : SessionStatus}
    (ready : status = .ready → q.status = .ready) (finished : Bool)
    (spent : status = .exhausted → finished = true)
    (head : ((first.intake {}).received row).caches.header.head?.bind CachedRow.ownedCells =
      some cells.toArray) :
    Ahead { rows := #[{ id := 0, cells := .owned cells.toArray }] }
      { first.after q ((first.intake {}).received row) status with finished }
      ((first.intake {}).received row).caches ∧
        ((first.intake {}).received row).caches.data = {} := by
  rw [received_header begins.sink] at head ⊢
  have cells' : row.cells.toArray = cells.toArray := Option.some.inj head
  refine ⟨?_, rfl⟩
  exact {
    layout := by
      rintro r ⟨rfl⟩
      exact shows_.layout
    ready := fun is => ⟨q, rfl, ready is⟩
    spent := fun exhausted => Or.inl (spent exhausted)
    sink := Sink.noConfusion
    nextId := Int.le_of_eq begins.nextId.symm
    same := by
      show ({ rows := #[.owned row 0] } : RowCache) = _
      rw [CachedRow.owned, cells']
    kept := fun _ => rfl
    data := .none rfl }

theorem Begins.pull {first : Session} (begins : Begins first p) {cells : List Cell}
    (pulled : first.pull {} = (.ok (), s, caches))
    (head : caches.header.head?.bind CachedRow.ownedCells = some cells.toArray) :
    Ahead { rows := #[{ id := 0, cells := .owned cells.toArray }] } s caches ∧ caches.data = {} := by
  have steps := stepOnce_steps begins.parser begins.ready begins.layout {}
  unfold Session.pull Session.advance at pulled
  rw [begins.status, begins.sink] at pulled
  dsimp only at pulled
  rcases stepped : first.stepOnce {} with ⟨outcome, s', caches'⟩
  rw [stepped] at steps pulled
  cases steps with
  | row q row ready shows_ =>
    cases pulled
    exact begins.received shows_ (fun _ => ready) first.finished
      (fun exhausted => SessionStatus.noConfusion (begins.status.symm.trans exhausted)) head
  | failed error q laid => cases pulled
  | noMore q laid exhausted used =>
    have finishing := finish_finishes (s := first.after q (first.intake {}) .exhausted)
      begins.unfinished rfl laid exhausted used {}
    dsimp only at pulled
    rw [pulled] at finishing
    rcases finishing with ⟨r, laid⟩ | ⟨r, row, shows_⟩
    · cases head
    · exact begins.received shows_ SessionStatus.noConfusion true (fun _ => rfl) head

theorem readHeader_begins {source : Source} {maxColumns : Nat} {cells : List Cell}
    (read : readHeader source maxColumns = .ok (cells, s, caches)) :
    Ahead { rows := #[{ id := 0, cells := .owned cells.toArray }] } s caches ∧ caches.data = {} := by
  obtain ⟨session, made, pulled, head⟩ := readHeader_inv read
  obtain ⟨-, rfl⟩ := session_new_inv made
  exact Begins.pull ⟨rfl, Parser.layout_initial _ _, rfl, rfl, rfl, rfl, rfl⟩ pulled head

theorem readHeader_ahead {source : Source} {maxColumns : Nat} {cells : List Cell}
    (read : readHeader source maxColumns = .ok (cells, s, caches)) :
    Ahead { rows := #[{ id := 0, cells := .owned cells.toArray }] } s caches :=
  (readHeader_begins read).1

theorem connectTo_looksAhead {opened : Disk.Opened} {name : String} {params : Params}
    {declaration : Host.Declaration} {blanks : BlankCounter} {t : State}
    (connected : (connectTo opened name params declaration blanks).result = .ok t) :
    ∃ cells, t.LooksAhead { rows := #[{ id := 0, cells := .owned cells }] } := by
  obtain ⟨-, -, -, header, read, -⟩ := connectTo_inv connected
  exact ⟨_, readHeader_ahead read⟩

theorem connectTo_data {opened : Disk.Opened} {name : String} {params : Params}
    {declaration : Host.Declaration} {blanks : BlankCounter} {t : State}
    (connected : (connectTo opened name params declaration blanks).result = .ok t) :
    t.caches.data = {} := by
  obtain ⟨-, -, -, header, read, -⟩ := connectTo_inv connected
  exact (readHeader_begins read).2

/-- Whatever is done with a table, over whatever source, its cache of data holds one row at most,
which is read with its present meaning. The header stays until the table is disconnected. Once a row
was looked for, there is one at hand or none will come. -/
theorem operations_look_ahead {opened : Disk.Opened} {name : String} {params : Params}
    {declaration : Host.Declaration} {blanks : BlankCounter} {t : State}
    (connected : (connectTo opened name params declaration blanks).result = .ok t)
    (ops : List Operation) :
    let s := t.run ops
    s.caches.data.size ≤ 1 ∧
      (∀ row ∈ s.caches.data.rows, ∃ p spans, s.session.parser = some p ∧
        row.cells = .borrowed p.generation spans) ∧
      (∀ context index, ∃ shown, s.column context index = .ok shown) ∧
      (∃ cells, t.caches.header.rows = #[{ id := 0, cells := .owned cells }]) ∧
      (Operation.disconnect ∉ ops → s.caches.header = t.caches.header) ∧
      (∀ description, s.session.status = .failed description → s.caches.data.isEmpty = true) ∧
      (Operation.filter ∈ ops ∨ Operation.next ∈ ops →
        (s.caches.data.isEmpty = false ∨ s.session.isDone = true) ∧
        (s.atEnd = false → ∃ row, s.caches.data.head? = some row ∧ s.rowid = row.id ∧
          1 ≤ row.id)) := by
  intro s
  obtain ⟨cells, begun⟩ := connectTo_looksAhead connected
  obtain ⟨header, ahead, kept⟩ := State.runs_looksAhead begun ops
  refine ⟨?_, ?_, State.column_ok ahead, ⟨cells, by rw [begun.same]⟩,
    fun staying => (ahead.same.trans (kept staying)).trans begun.same.symm, ?_, fun looked => ?_⟩
  · cases ahead.data with
    | none empty =>
      rw [empty]
      exact Nat.zero_le 1
    | row p row id parser shows_ number working head =>
      rw [head]
      exact Nat.le_refl 1
  · cases ahead.data with
    | none empty =>
      rw [empty]
      exact fun row member => absurd member (Array.not_mem_empty row)
    | row p row id parser shows_ number working head =>
      rw [head]
      intro cached member
      cases Array.mem_singleton.mp member
      exact ⟨p, _, parser, congrArg (RowCells.borrowed · _) shows_.current⟩
  · intro description failed
    cases ahead.data with
    | none empty =>
      rw [empty]
      rfl
    | row p row id parser shows_ number working head => exact absurd failed (working description)
  · have settled := State.runs_settled begun ops (Or.inr (looked.elim
      (fun member => ⟨_, member, Or.inl rfl⟩) fun member => ⟨_, member, Or.inr rfl⟩))
    exact ⟨settled, State.current_of_settled ahead settled⟩

/-- The second row of data is too wide, the source is written anew in mid-scan, and the table is
used on after the failure and after the scan that finds it again. -/
theorem operations_look_ahead_past_failures :
    let content : Bytes := [97, 44, 98, 10, 49, 44, 50, 10, 51, 44, 52, 44, 53, 10]
    let opened : Disk.Opened := { source := .ofBytes content [.atMost 1, .interrupted] }
    let ops : List Operation :=
      [.next, .next, .next, .openCursor, .filter, .rewrite [97, 10, 49], .next, .rowid, .filter]
    ∃ t, (connectTo opened "t" { maxColumns := 2 } {} 0).result = .ok t ∧
      let s := t.run ops
      s.caches.data.size ≤ 1 ∧ (∀ context index, ∃ shown, s.column context index = .ok shown) ∧
        s.caches.header = t.caches.header ∧
        (s.atEnd = false → ∃ row, s.caches.data.head? = some row ∧ s.rowid = row.id ∧
          1 ≤ row.id) := by
  intro content opened ops
  have read : (readHeader opened.source 2).map Prod.fst =
      .ok [⟨[97], false⟩, ⟨[98], false⟩] := by
    decide +kernel
  obtain ⟨t, connected, -⟩ := @connectTo_of_header opened "t" { maxColumns := 2 } {} 0 _ read
    ⟨_, declareColumns_ok (List.cons_ne_nil _ _) {} 0⟩
  obtain ⟨single, -, readable, -, header, -, current⟩ := operations_look_ahead connected ops
  have staying : Operation.disconnect ∉ ops := by simp [ops]
  have looked : Operation.filter ∈ ops := by simp [ops]
  exact ⟨t, connected, single, readable, header staying, (current (Or.inl looked)).2⟩

end Tabular.Table
