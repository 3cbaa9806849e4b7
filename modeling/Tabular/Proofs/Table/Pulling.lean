import Tabular.Proofs.Csv.Endings
import Tabular.Proofs.Csv.WholeInput
import Tabular.Table.State

/-!
Moving a session on by one row. While records are ahead every pull brings the next one, from a step
or from finishing the parse, and after the last one nothing comes any more.
-/
namespace Tabular.Table

open Csv

/-! ## Rows that can be read -/

structure Shows (p : Parser) (row : Row) : Prop where
  layout : p.Layout
  keeps : p.Keeps row
  current : row.generation = p.generation

theorem Shows.cell {p : Parser} {row : Row} (shows_ : Shows p row) (id : Int) (index : Nat) :
    (CachedRow.borrowed row id).cell index p.resolve = .ok row.cells[index]? := by
  rw [cell_borrowed shows_.layout shows_.keeps id index]
  cases row.cells[index]? with
  | none => rfl
  | some cell => exact if_pos shows_.current

theorem shows_afterRow {p : Parser} (layout : p.Layout) (completed : p.Completed) :
    Shows p.afterRow p.completedRow where
  layout := Parser.layout_afterRow layout completed
  keeps := { Parser.keeps_completedRow layout with }
  current := rfl

theorem flush_generation {β : Type} (handler : RowHandler β) (p : Parser) (s : β) :
    (p.flush handler s).2.1.generation = p.generation := by
  fun_induction Parser.flush handler p s with
  | case1 p s error q found => exact (Parser.moves_of_flushRow found).continues.generation
  | case2 p s q found => exact (Parser.moves_of_flushRow found).continues.generation
  | case3 p s q found error t handled =>
    exact (Parser.moves_of_flushRow found).continues.generation
  | case4 p s q found t handled ih =>
    exact ih.trans (Parser.moves_of_flushRow found).continues.generation

theorem finish_generation {β : Type} (handler : RowHandler β) {p : Parser} (s : β)
    (open_ : p.status = .ready ∨ p.status = .exhausted) :
    (p.finish handler s).2.1.generation = p.generation + 1 := by
  have flushing := flush_generation handler p.atFinish s
  have begun : p.atFinish.generation = p.generation + 1 := by
    unfold Parser.atFinish
    split <;> rfl
  rcases flushed : p.atFinish.flush handler s with ⟨outcome, q, t⟩
  rw [flushed, begun] at flushing
  rw [Parser.finish_open handler open_ flushed]
  exact flushing

/-! ## Rows received -/

def Session.intake (s : Session) (caches : Caches) : Intake :=
  { sink := s.sink, nextId := s.nextId, caches }

def Intake.received (i : Intake) (row : Row) : Intake := (Intake.receive row i).2

@[simp] theorem receive_eq (i : Intake) (row : Row) :
    Intake.receive row i = (.ok (), i.received row) := by
  unfold Intake.received Intake.receive
  cases i.sink <;> rfl

theorem receive_takes (row : Row) (i : Intake) : (Intake.receive row i).1 = .ok () := by
  simp

@[simp] theorem feed_receive (rows : List Row) (i : Intake) :
    feed Intake.receive rows i = (.ok (), rows.foldl Intake.received i) := by
  induction rows generalizing i with
  | nil => rfl
  | cons row rest ih =>
    simpa [feed] using ih _

theorem finish_shows {p q : Parser} {i j : Intake} {rows : List Row} (layout : p.Layout)
    (open_ : p.status = .ready ∨ p.status = .exhausted)
    (current : ∀ row ∈ rows, row.generation = p.generation + 1)
    (run : ∀ (β : Type) (handler : RowHandler β) (s : β), ∃ q,
      p.finish handler s = ((feed handler rows s).1, q, (feed handler rows s).2) ∧
        q.status = Parser.statusFinished (feed handler rows s).1)
    (finished : p.finish Intake.receive i = (.ok (), q, j)) : ∀ row ∈ rows, Shows q row := by
  have generation := finish_generation Intake.receive i open_
  -- A watched run sees the same rows, and every row that is seen is kept.
  have kept := Parser.keeps_of_seen [.finish Intake.receive] p [] i layout fun _ none =>
    absurd none List.not_mem_nil
  have layout' := ((Parser.invariant_generation Intake.receive 0).finish p i layout
    (Nat.zero_le _)).1
  obtain ⟨r, watched, -⟩ := run _ (Parser.watched Intake.receive) ([], i)
  simp only [Parser.runCalls, List.map_cons, List.map_nil, List.foldl_cons, List.foldl_nil,
    Parser.Call.watched, Parser.Call.run, watched, Parser.feed_watched receive_takes, List.nil_append,
    finished] at kept
  rw [finished] at generation layout'
  intro row member
  exact ⟨layout', kept row member, (current row member).trans generation.symm⟩

/-! ## Sessions with records ahead -/

/-- A session that has records ahead of it, and whose parse is not over. -/
structure Facing (s : Session) (p : Parser) (rs : List Record) : Prop where
  parser : s.parser = some p
  ready : p.status = .ready
  awaiting : ∃ text, p.Awaiting text ∧ p.ahead text = rs
  bound : rs.length ≤ p.work
  status : s.status = .ready
  unfinished : s.finished = false

/-- The records ahead are all within the limits. -/
structure Poised (s : Session) (p : Parser) (rs : List Record) : Prop extends Facing s p rs where
  fits : ∀ r ∈ rs, p.options.Fits r

/-- A session that will bring no further row. -/
structure Done (s : Session) : Prop where
  status : s.status = .exhausted
  finished : s.finished = true

theorem toCome_le_work (p : Parser) : p.toCome.length ≤ p.work := by
  rw [Parser.toCome, List.length_append]
  unfold Parser.work Parser.bufferedWork Tokenizer.work
  omega

theorem facing_afterRow {s : Session} {q : Parser} (whole : q.Whole) (feeding : q.Feeding)
    (checked : q.markChecked = true) (ready : q.status = .ready) (i : Intake)
    (status : s.status = .ready) (unfinished : s.finished = false) :
    Facing (s.after q.afterRow i s.status) q.afterRow
      (Grammar.records q.tokenizer.delimiter q.toCome) where
  parser := rfl
  ready := ready
  awaiting := ⟨q.toCome, Parser.awaiting_afterRow whole feeding checked, whole.ahead_afterRow _⟩
  bound := Nat.le_trans (Grammar.records_length_le _ _) (toCome_le_work q.afterRow)
  status := status
  unfinished := unfinished

structure Used (p : Parser) : Prop where
  left : p.Coherent ∨ p.Over
  checked : p.markChecked = true
  used : p.window.pending = []
  exhausted : p.status = .exhausted

structure Spent (p : Parser) : Prop extends Used p where
  fits : ∀ r ∈ p.ahead [], p.options.Fits r

/-- The failure to be reported of a record that is over a limit, where it has the given number. -/
inductive Exceeded (o : Csv.Options) (r : Record) (number : Nat) : Error → Prop where
  | columns (wide : o.maxColumns < r.length) :
      Exceeded o r number (.tooManyColumns number o.maxColumns)
  | size (large : o.bufferSize ≤ recordSize r) :
      Exceeded o r number (.rowTooLarge number o.bufferSize)

theorem not_exceeded {o : Csv.Options} {r : Record} {number : Nat} {error : Error} (fits : o.Fits r) :
    ¬ Exceeded o r number error := by
  intro exceeded
  cases exceeded with
  | columns wide => exact absurd fits.1 (Nat.not_le_of_lt wide)
  | size large => exact absurd fits.2 (Nat.not_lt_of_le large)

inductive Turning (s : Session) (p : Parser) (caches : Caches) :
    List Record → Except Error Advance × Session × Caches → Prop where
  | row (q : Parser) (row : Row) (more : List Record) (shows_ : Shows q row)
      (options : q.options = p.options) (counted : q.rows = p.rows + 1)
      (fits : p.options.Fits row.cells)
      (facing : Facing (s.after q ((s.intake caches).received row) s.status) q more) :
      Turning s p caches (row.cells :: more) (.ok .progressed,
        s.after q ((s.intake caches).received row) s.status,
        ((s.intake caches).received row).caches)
  | noMore (q : Parser) (options : q.options = p.options) (counted : q.rows = p.rows)
      (used : Used q) : Turning s p caches (q.ahead [])
        (.ok .exhausted, s.after q (s.intake caches) .exhausted, caches)
  | failed (error : Error) (q : Parser) (first : Record) (rest : List Record)
      (exceeded : Exceeded p.options first (p.rows + 1) error) :
      Turning s p caches (first :: rest)
        (.error error, s.after q (s.intake caches) (.failed error.message), caches)

theorem stepOnce_turns {s : Session} {p : Parser} {rs : List Record} (facing : Facing s p rs)
    (caches : Caches) : Turning s p caches rs (s.stepOnce caches) := by
  obtain ⟨text, awaiting, ahead⟩ := facing.awaiting
  have capacity : p.beginGeneration.buffer.capacity = p.options.bufferSize :=
    awaiting.feeding.toSupplied.beginGeneration.bufferSize
  unfold Session.stepOnce
  rw [facing.parser]
  dsimp only
  cases Parser.parseMore_reads facing.ready awaiting with
  | row q whole feeding checked continues taken split first room step =>
    have whole_ := first q.toCome
    rw [← split, ahead] at whole_
    subst whole_
    have handled : Intake.receive q.completedRow { sink := s.sink, nextId := s.nextId, caches } =
        (.ok (), (s.intake caches).received q.completedRow) := receive_eq _ _
    rw [step, handled]
    have fits := whole.fits continues (by simpa using capacity) room
    exact .row q.afterRow q.completedRow _ (shows_afterRow whole.toLayout whole.toCompleted)
      continues.options (congrArg (· + 1) continues.rows) fits
      (facing_afterRow whole feeding checked (continues.status.trans facing.ready) _ facing.status
        facing.unfinished)
  | noMore q left feeding checked continues used same roomy step =>
    rw [ahead] at same
    subst same
    rw [step]
    exact .noMore { q with status := .exhausted } continues.options continues.rows {
      left := left.imp (fun coherent => { coherent with }) fun past => { past with }
      checked := checked
      used := (List.append_eq_nil_iff.mp used).1
      exhausted := rfl }
  | failed error q first rest continues some exceeds full step =>
    rw [ahead] at some
    subst some
    rw [step]
    refine .failed error { q with status := .failed error.message } first rest ?_
    cases exceeds with
    | columns wide => exact .columns wide
    | size large =>
      rw [capacity] at large ⊢
      exact .size (by simpa using large)

inductive Stepping (s : Session) (caches : Caches) :
    List Record → Except Error Advance × Session × Caches → Prop where
  | row (p : Parser) (row : Row) (more : List Record) (shows_ : Shows p row)
      (poised : Poised (s.after p ((s.intake caches).received row) s.status) p more) :
      Stepping s caches (row.cells :: more) (.ok .progressed,
        s.after p ((s.intake caches).received row) s.status,
        ((s.intake caches).received row).caches)
  | noMore (p : Parser) (spent : Spent p) : Stepping s caches (p.ahead [])
      (.ok .exhausted, s.after p (s.intake caches) .exhausted, caches)

theorem stepOnce_reads {s : Session} {p : Parser} {rs : List Record} (poised : Poised s p rs)
    (caches : Caches) : Stepping s caches rs (s.stepOnce caches) := by
  have turns := stepOnce_turns poised.toFacing caches
  have fits := poised.fits
  rcases stepped : s.stepOnce caches with ⟨outcome, s', caches'⟩
  rw [stepped] at turns
  cases turns with
  | row q row more shows_ options counted first facing =>
    rw [← options] at fits
    exact .row q row more shows_ ⟨facing, fun r member => fits r (List.mem_cons_of_mem _ member)⟩
  | noMore q options counted used =>
    rw [← options] at fits
    exact .noMore q ⟨used, fits⟩
  | failed error q first rest exceeded =>
    exact absurd exceeded (not_exceeded (fits first List.mem_cons_self))

theorem finish_brings {s : Session} {p : Parser} (parser : s.parser = some p)
    (unfinished : s.finished = false) (spent : Spent p) (caches : Caches) :
    ∃ (q : Parser) (rows : List Row),
      rows.map Row.cells = p.ahead [] ∧ (∀ row ∈ rows, Shows q row) ∧
        s.finish caches = (.ok (),
          { s.after q (rows.foldl Intake.received (s.intake caches)) s.status with
            finished := true },
          (rows.foldl Intake.received (s.intake caches)).caches) := by
  have layout : p.Layout := spent.left.elim Parser.Coherent.toLayout Parser.Over.toLayout
  have size : ∀ r, p.ahead [] = [r] → recordSize r < p.options.bufferSize ∨
      recordSize r = p.options.bufferSize ∧ False := fun r only =>
    Or.inl (spent.fits r (by rw [only]; exact List.mem_cons_self)).2
  obtain ⟨rows, taken, ending, takes, deliver, current, run⟩ := Parser.finish_takes
    (Or.inr spent.exhausted) spent.checked spent.left spent.used size
  obtain ⟨rfl, rfl⟩ := takes.all_of_fits spent.fits
  have run' := fun (β : Type) (handler : RowHandler β) (s : β) => by
    have ran := run β handler s
    simpa using ran
  obtain ⟨q, finished, -⟩ := run' Intake Intake.receive (s.intake caches)
  rw [feed_receive] at finished
  refine ⟨q, rows, deliver.cells, ?_, ?_⟩
  · exact finish_shows layout (Or.inr spent.exhausted) current run' finished
  · have handled : p.finish Intake.receive { sink := s.sink, nextId := s.nextId, caches } =
        (.ok (), q, rows.foldl Intake.received (s.intake caches)) := finished
    unfold Session.finish
    rw [unfinished, if_neg Bool.false_ne_true, parser]
    dsimp only
    rw [handled]

/-! ## Pulls -/

/-- Where a session stands whose cache of data holds `data`: behind `id` rows and in front of the
records `rs`, of which the first is in the cache. -/
inductive At (s : Session) (data : RowCache) (id : Nat) : List Record → Prop where
  | row (p : Parser) (row : Row) (more : List Record) (parser : s.parser = some p)
      (shows_ : Shows p row) (head : data = { rows := #[.borrowed row (id + 1)] })
      (onward : (Poised s p more ∧ s.sink = .data ∧ s.nextId = id + 2) ∨ more = [] ∧ Done s) :
      At s data id (row.cells :: more)
  | past (none : data = {}) (done : Done s) : At s data id []

structure Pulled (id : Nat) (rs : List Record)
    (result : Except Error Unit × Session × Caches) : Prop where
  ok : result.1 = .ok ()
  stands : At result.2.1 result.2.2.data id rs

theorem received_data {i : Intake} (sink : i.sink = .data) (row : Row) :
    i.received row = { i with
      nextId := i.nextId + 1, caches.data := i.caches.data.append (.borrowed row i.nextId) } := by
  unfold Intake.received Intake.receive
  rw [sink]

theorem received_skipHeader {i : Intake} (sink : i.sink = .skipHeader) (row : Row) :
    i.received row = { i with sink := .data } := by
  unfold Intake.received Intake.receive
  rw [sink]

theorem finish_data {s : Session} {caches : Caches} {p : Parser} {id : Nat}
    (parser : s.parser = some p) (unfinished : s.finished = false) (status : s.status = .exhausted)
    (spent : Spent p) (sink : s.sink = .data) (nextId : s.nextId = id + 1)
    (none : caches.data = {}) : Pulled id (p.ahead []) (s.finish caches) := by
  obtain ⟨q, rows, cells, readable, finished⟩ := finish_brings parser unfinished spent caches
  have few := p.length_ahead_nil
  rw [finished, ← cells]
  rw [← cells, List.length_map] at few
  match rows, few with
  | [], _ => exact ⟨rfl, .past none ⟨status, rfl⟩⟩
  | [row], _ =>
    have received := received_data (i := s.intake caches) sink row
    rw [List.foldl_cons, List.foldl_nil, received]
    refine ⟨rfl, .row q row [] rfl (readable row List.mem_cons_self) ?_
      (Or.inr ⟨rfl, status, rfl⟩)⟩
    show caches.data.append (.borrowed row s.nextId) = _
    rw [none, nextId]
    rfl

theorem finish_skipHeader {s : Session} {caches : Caches} {p : Parser}
    (parser : s.parser = some p) (unfinished : s.finished = false) (status : s.status = .exhausted)
    (spent : Spent p) (sink : s.sink = .skipHeader) (none : caches.data = {}) :
    Pulled 0 (p.ahead []).tail (s.finish caches) := by
  obtain ⟨q, rows, cells, readable, finished⟩ := finish_brings parser unfinished spent caches
  have few := p.length_ahead_nil
  rw [finished, ← cells]
  rw [← cells, List.length_map] at few
  match rows, few with
  | [], _ => exact ⟨rfl, .past none ⟨status, rfl⟩⟩
  | [row], _ =>
    have received := received_skipHeader (i := s.intake caches) sink row
    rw [List.foldl_cons, List.foldl_nil, received]
    exact ⟨rfl, .past none ⟨status, rfl⟩⟩

theorem advance_data {s : Session} (status : s.status = .ready) (sink : s.sink = .data)
    (caches : Caches) : s.advance caches = s.stepOnce caches := by
  unfold Session.advance
  rw [status, sink]

/-- The header does not count as a row: a pull goes on behind it. -/
theorem pull_header {s s' : Session} {caches caches' : Caches} (status : s.status = .ready)
    (sink : s.sink = .skipHeader)
    (stepped : s.stepOnce caches = (.ok .progressed, s', caches'))
    (status' : s'.status = .ready) (sink' : s'.sink = .data) :
    s.pull caches = s'.pull caches' := by
  have advanced : s.advance caches = s'.advance caches' := by
    rw [advance_data status' sink', Session.advance, status, sink]
    dsimp only
    rw [stepped]
  rw [Session.pull, advanced, ← Session.pull]

theorem pull_data {s : Session} {caches : Caches} {p : Parser} {rs : List Record} {id : Nat}
    (poised : Poised s p rs) (sink : s.sink = .data) (nextId : s.nextId = id + 1)
    (none : caches.data = {}) : Pulled id rs (s.pull caches) := by
  have stepping := stepOnce_reads poised caches
  rw [Session.pull, advance_data poised.status sink]
  rcases stepped : s.stepOnce caches with ⟨outcome, s', caches'⟩
  rw [stepped] at stepping
  cases stepping with
  | row q row more readable onward =>
    have received := received_data (i := s.intake caches) sink row
    rw [received] at onward ⊢
    refine ⟨rfl, .row q row more rfl readable ?_ (Or.inl ⟨onward, sink, ?_⟩)⟩
    · show caches.data.append (.borrowed row s.nextId) = _
      rw [none, nextId]
      rfl
    · show s.nextId + 1 = _
      rw [nextId, Int.add_assoc]
      rfl
  | noMore q spent =>
    exact finish_data rfl poised.unfinished rfl spent sink nextId none

theorem pull_skipHeader {s : Session} {caches : Caches} {p : Parser} {rs : List Record}
    (poised : Poised s p rs) (sink : s.sink = .skipHeader) (nextId : s.nextId = 1)
    (none : caches.data = {}) : Pulled 0 rs.tail (s.pull caches) := by
  have stepping := stepOnce_reads poised caches
  rcases stepped : s.stepOnce caches with ⟨outcome, s', caches'⟩
  rw [stepped] at stepping
  cases stepping with
  | row q row more readable onward =>
    have received := received_skipHeader (i := s.intake caches) sink row
    rw [received] at onward stepped
    rw [pull_header poised.status sink stepped onward.status rfl]
    exact pull_data onward rfl nextId none
  | noMore q spent =>
    rw [Session.pull, Session.advance, poised.status, sink]
    dsimp only
    rw [stepped]
    exact finish_skipHeader rfl poised.unfinished rfl spent sink none

theorem pull_done {s : Session} (done : Done s) (caches : Caches) :
    s.pull caches = (.ok (), s, caches) := by
  unfold Session.pull Session.advance
  rw [done.status]
  dsimp only
  unfold Session.finish
  rw [if_pos done.finished]

end Tabular.Table
