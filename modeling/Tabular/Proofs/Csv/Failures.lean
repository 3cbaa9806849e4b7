import Tabular.Proofs.Csv.Endings
import Tabular.Proofs.Csv.WholeInput

/-!
Parses that fail. Over any source, and however a parse ends, the rows that it has handed over are the
first records of its input, none of them cut short, merged or repeated. A failure names the record
that it met, and nothing comes after it.
-/
namespace Tabular.Csv

open Grammar

namespace Parser

variable {p : Parser} {n : Nat} {β : Type} {excused : Prop}

/-! ## Runs of calls -/

/-- Calls of which none finishes a parse that could go on. -/
def Orderly : List (Call β) → Parser × β → Prop
  | [], _ => True
  | call :: rest, state => call.Allowed state.1 ∧ Orderly rest (call.run state)

theorem Called.hands {call : Call β} {s : β} {left : List Record}
    (called : Called excused call p s n left) :
    ∃ rows left', left = rows.map Row.cells ++ left' ∧ Place excused (call.run (p, s)).1 n left' ∧
      ∀ seen, call.watched.run (p, seen, s) =
        ((call.run (p, s)).1, seen ++ rows, (call.run (p, s)).2) := by
  have unwatched : ∀ {q rows t}, call.watched.run (p, [], s) = (q, rows, t) →
      call.run (p, s) = (q, t) := by
    intro q rows t run
    obtain ⟨noted, same⟩ := call.run_watched p [] s
    cases run.symm.trans same
    rfl
  cases called with
  | silent q place answer run =>
    rw [unwatched (run [])]
    refine ⟨[], left, rfl, place, fun seen => ?_⟩
    rw [run, List.append_nil]
  | row q row rest first place answer run =>
    rw [unwatched (run [])]
    exact ⟨[row], rest, first, place, run⟩
  | failed q error cause place answer run =>
    rw [unwatched (run [])]
    refine ⟨[], left, rfl, place, fun seen => ?_⟩
    rw [run, List.append_nil]

theorem runCalls_reads (calls : List (Call β)) (p : Parser) (seen : List Row) (s : β)
    {left : List Record}
    (refused : ∀ call ∈ calls, ∀ row t error, (call.handler row t).1 = .error error → excused)
    (orderly : Orderly calls (p, s)) (within : Within (runCalls calls (p, s)).1 n)
    (place : Place excused p n left) :
    ∃ rows left', left = rows.map Row.cells ++ left' ∧
      Place excused (runCalls calls (p, s)).1 n left' ∧
      runCalls (calls.map Call.watched) (p, seen, s) =
        ((runCalls calls (p, s)).1, seen ++ rows, (runCalls calls (p, s)).2) := by
  induction calls generalizing p seen s left with
  | nil => exact ⟨[], left, rfl, place, by rw [List.append_nil]; rfl⟩
  | cons call rest ih =>
    -- What is left behind this call is what the later ones find.
    obtain ⟨rows, between, first, placed, run⟩ := (call_reads (refused call List.mem_cons_self)
      orderly.1 (Within.of_runCalls within) place).hands
    obtain ⟨more, left', later, placed', runs⟩ := ih (call.run (p, s)).1 (seen ++ rows)
      (call.run (p, s)).2 (fun call member => refused call (List.mem_cons_of_mem _ member))
      orderly.2 within placed
    refine ⟨rows ++ more, left', ?_, placed', ?_⟩
    · rw [first, later, List.map_append, List.append_assoc]
    · simpa [run, ← List.append_assoc] using runs

/-! ## What is counted -/

/-- What is known of a parse and of the rows that it has handed over, wherever it stands. -/
structure Counted (start p : Parser) (seen : List Row) : Prop where
  options : p.options = start.options
  bufferSize : p.buffer.capacity = start.buffer.capacity
  rows : p.rows = start.rows + seen.length
  extent : p.source.extent = start.source.extent
  content : p.source.content = start.source.content
  reads : p.source.reads <:+ start.source.reads
  within : ∀ row ∈ seen, row.cells.length ≤ start.options.maxColumns ∧
    recordSize row.cells ≤ start.buffer.capacity

theorem invariant_counted (handler : RowHandler β) (start : Parser) :
    Invariant (watched handler) fun p state => Counted start p state.1 where
  begins _ _ _ counted :=
    { counted with bufferSize := by simpa using counted.bufferSize }
  moves _ _ _ _ move counted := { counted with
    options := move.continues.options.trans counted.options
    bufferSize := move.continues.bufferCapacity.trans counted.bufferSize
    rows := move.continues.rows.trans counted.rows
    extent := move.extent.trans counted.extent
    content := move.continues.content.trans counted.content
    reads := move.continues.reads.trans counted.reads }
  delivers := by
    intro p state layout completed counted
    refine { counted with rows := ?_, within := ?_ }
    · show p.rows + 1 = start.rows + (state.1 ++ [p.completedRow]).length
      rw [counted.rows, List.length_append, List.length_singleton, Nat.add_assoc]
    · intro row seen
      rcases List.mem_append.mp seen with earlier | now
      · exact counted.within row earlier
      · rw [List.mem_singleton.mp now, ← counted.options, ← counted.bufferSize]
        have size := layout.recordSize_doneCells
        have inside := Nat.le_trans layout.fieldStart_le layout.live_le
        refine ⟨?_, ?_⟩
        · show p.doneCells.length ≤ _
          simpa using layout.columns_le
        · show recordSize p.doneCells ≤ _
          omega
  ends _ _ _ _ counted := { counted with }

/-! ## After a failure -/

theorem run_failed {description : String} (failed : p.status = .failed description)
    (calls : List (Call β)) (s : β) : runCalls calls (p, s) = (p, s) := by
  induction calls with
  | nil => rfl
  | cons call rest ih =>
    simpa [((call_over call s).2 description failed).2] using ih

theorem failed_of_outcome {call : Call β} {s : β} {error : Error}
    (before : ∀ description, p.status ≠ .failed description)
    (answer : call.outcome (p, s) = .error error) :
    (call.run (p, s)).1.status = .failed error.message := by
  cases call with
  | parseMore handler =>
    by_cases ready : p.status = .ready
    · rcases stepped : p.beginGeneration.step handler s with ⟨outcome, q, t⟩
      simp only [Call.outcome, Call.run, parseMore_ready handler ready stepped] at answer ⊢
      cases outcome with
      | error error =>
        cases answer
        rfl
      | ok outcome => cases answer
    · unfold Call.outcome parseMore at answer
      cases status : p.status with
      | ready => exact absurd status ready
      | exhausted | finished =>
        simp only [status] at answer
        cases answer
      | failed description => exact absurd status (before description)
  | finish handler =>
    by_cases open_ : p.status = .ready ∨ p.status = .exhausted
    · rcases flushed : p.atFinish.flush handler s with ⟨outcome, q, t⟩
      simp only [Call.outcome, Call.run, finish_open handler open_ flushed] at answer ⊢
      rw [answer]
      rfl
    · unfold Call.outcome finish at answer
      cases status : p.status with
      | ready => exact absurd (Or.inl status) open_
      | exhausted => exact absurd (Or.inr status) open_
      | finished =>
        simp only [status] at answer
        cases answer
      | failed description => exact absurd status (before description)

/-! ## The input -/

/-- The input as far as a parse knows of it: if its source has brought nothing once, that was the
end. -/
def input (p : Parser) : Bytes :=
  if p.atEnd then p.source.content.take p.source.offset else p.source.content

theorem exists_within (p : Parser) (whole : p.source.extent = p.source.content.length) :
    ∃ n, Within p n ∧ p.source.content.take n = p.input := by
  unfold input
  cases ended : p.atEnd with
  | true => exact ⟨p.source.offset, ⟨Nat.le_refl _, fun _ => rfl⟩, rfl⟩
  | false =>
    refine ⟨p.source.extent, ⟨Nat.le_add_right _ _, fun atEnd => ?_⟩, ?_⟩
    · rw [ended] at atEnd
      cases atEnd
    · rw [whole, List.take_length]
      rfl

end Parser

namespace Parser

variable {p q : Parser} {n : Nat} {β : Type} {excused : Prop}

theorem initial_place {content : Bytes} (reads : List ReadEvent) (seeks : List (Option String))
    (options : Options) (single : SingleMark content) (n : Nat)
    (excuses : ∀ detail, .failed detail ∈ reads → excused) :
    Place excused (initial (Source.ofBytes content reads seeks) options) n
      (reference options.delimiter (content.take n)) := by
  have upTo : (Source.ofBytes content reads seeks).upTo n = content.take n := rfl
  refine .ready rfl ⟨rfl, excuses⟩ (withoutMark (content.take n)) ?_ (ahead_of_noRecord rfl _)
  rw [← upTo]
  exact initial_awaits _ options (single.take n)

/-! ## A whole input -/

theorem Supplied.handOver {handler : RowHandler β} {s : β}
    {result : Except Error StepOutcome × Parser} (supplied : Supplied result.2) :
    Supplied (handOver handler s result).2.1 := by
  rcases result with ⟨error | _ | _, q⟩
  · exact { supplied with }
  · dsimp only [Parser.handOver]
    rcases handler q.completedRow s with ⟨error | _, t⟩ <;> exact { supplied with }
  · exact { supplied with }

/-- What a sound source makes of a call: while the parse goes on it is supplied, and once the source
has said that it has ended it has nothing left. -/
theorem run_ended {call : Call β} {s : β} {left : List Record} (allowed : call.Allowed p)
    (place : Place excused p p.source.extent left) (ended : p.atEnd = true → p.source.rest = [])
    (supplied : p.status = .ready → Supplied p) :
    let q := (call.run (p, s)).1
    (q.atEnd = true → q.source.rest = []) ∧ (q.status = .ready → Supplied q) ∧
      q.source.extent = p.source.extent := by
  intro q
  have idle : call.run (p, s) = (p, s) → (q.atEnd = true → q.source.rest = []) ∧
      (q.status = .ready → Supplied q) ∧ q.source.extent = p.source.extent := by
    intro same
    have unchanged : q = p := congrArg Prod.fst same
    rw [unchanged]
    exact ⟨ended, supplied, rfl⟩
  cases place with
  | finished status none => exact idle ((call_over call s).1 status).2
  | failed description status cause => exact idle ((call_over call s).2 description status).2
  | ready status going text awaits same =>
    cases call with
    | finish handler => exact absurd status (allowed handler rfl)
    | parseMore handler =>
      have looked : q = (handOver handler s p.beginGeneration.look).2.1 :=
        congrArg (fun result => result.2.1) (parseMore_look handler status s)
      have later : Supplied (handOver handler s p.beginGeneration.look).2.1 :=
        Supplied.handOver (supplied status).beginGeneration.look
      rw [← looked] at later
      refine ⟨later.ended, fun _ => later, ?_⟩
      simpa [looked] using p.beginGeneration.look_moves.extent
  | exhausted status going rests checked used same =>
    -- There is nothing left to read, so it makes no difference that finishing says so.
    cases call with
    | parseMore handler =>
      exact idle (parseMore_over handler s (by rw [status]; exact ParserStatus.noConfusion))
    | finish handler =>
      obtain ⟨source, -⟩ := p.finish_keeps handler s (Or.inr status)
      rw [textTo_extent] at used
      have source' : q.source = p.source := source
      refine ⟨fun _ => ?_, fun ready => ?_, by rw [source']⟩
      · rw [source']
        exact (List.append_eq_nil_iff.mp used).2
      · rcases flushed : p.atFinish.flush handler s with ⟨outcome, r, t⟩
        have finished : q.status = statusFinished outcome :=
          congrArg (fun result => result.2.1.status) (finish_open handler (Or.inr status) flushed)
        rw [finished] at ready
        cases outcome <;> cases ready

theorem runCalls_ended (calls : List (Call β)) (p : Parser) (s : β) {left : List Record}
    (orderly : Orderly calls (p, s)) (place : Place True p p.source.extent left)
    (ended : p.atEnd = true → p.source.rest = [])
    (supplied : p.status = .ready → Supplied p) :
    let q := (runCalls calls (p, s)).1
    q.atEnd = true → q.source.rest = [] := by
  induction calls generalizing p s left with
  | nil => exact ended
  | cons call rest ih =>
    obtain ⟨ended', supplied', extent⟩ := run_ended (s := s) orderly.1 place ended supplied
    have within := within_extent ended'
    rw [extent] at within
    obtain ⟨rows, left', -, placed, -⟩ :=
      (call_reads (fun _ _ _ _ => trivial) orderly.1 within place).hands
    rw [← extent] at placed
    exact ih _ _ orderly.2 placed ended' supplied'

/-! ## Complete parses -/

def IsOver (p : Parser) : Prop := p.status ≠ .ready ∧ p.status ≠ .exhausted

theorem over_of_error {call : Call β} {s : β} {error : Error}
    (answer : call.outcome (p, s) = .error error) : (call.run (p, s)).1.IsOver := by
  have failed : ∃ description, (call.run (p, s)).1.status = .failed description := by
    by_cases before : ∃ description, p.status = .failed description
    · obtain ⟨description, status⟩ := before
      rw [((call_over call s).2 description status).2]
      exact ⟨description, status⟩
    · exact ⟨_, failed_of_outcome (not_exists.mp before) answer⟩
  obtain ⟨description, status⟩ := failed
  constructor <;> rw [status] <;> exact ParserStatus.noConfusion

theorem ne_ready_of_noMoreInput {handler : RowHandler β} {s t : β}
    (stepped : p.parseMore handler s = (.ok .noMoreInput, q, t)) : q.status ≠ .ready := by
  by_cases ready : p.status = .ready
  · rcases step : p.beginGeneration.step handler s with ⟨outcome, r, u⟩
    rw [parseMore_ready handler ready step] at stepped
    cases stepped
    exact ParserStatus.noConfusion
  · have same := parseMore_over handler s ready
    rw [stepped] at same
    cases same
    exact ready

theorem finish_isOver (handler : RowHandler β) (p : Parser) (s : β) :
    (p.finish handler s).2.1.IsOver := by
  by_cases open_ : p.status = .ready ∨ p.status = .exhausted
  · rcases flushed : p.atFinish.flush handler s with ⟨outcome, q, t⟩
    rw [finish_open handler open_ flushed]
    cases outcome <;> exact ⟨ParserStatus.noConfusion, ParserStatus.noConfusion⟩
  · rw [not_or] at open_
    rw [finish_over handler s open_.1 open_.2]
    exact open_

theorem drain_calls (handler : RowHandler β) (p : Parser) (s : β) :
    ∃ calls, (∀ call ∈ calls, Call.handler call = handler) ∧ Orderly calls (p, s) ∧
      runCalls calls (p, s) = (p.drain handler s).2 ∧ (p.drain handler s).2.1.IsOver := by
  fun_induction Parser.drain handler p s with
  | case1 p s error q t stepped =>
    have answer : Call.outcome (.parseMore handler) (p, s) = .error error := by
      rw [Call.outcome, stepped]
      rfl
    have isOver := over_of_error answer
    rw [Call.run, stepped] at isOver
    exact ⟨[.parseMore handler], by simp [Call.handler], ⟨fun _ other => (by cases other), trivial⟩,
      congrArg Prod.snd stepped, isOver⟩
  | case2 p s q t stepped =>
    have first : Call.run (.parseMore handler) (p, s) = (q, t) := congrArg Prod.snd stepped
    refine ⟨[.parseMore handler, .finish handler], by simp [Call.handler],
      ⟨fun _ other => (by cases other), ?_, trivial⟩, ?_, q.finish_isOver handler t⟩
    · rw [first]
      exact fun _ _ => ne_ready_of_noMoreInput stepped
    · rw [runCalls_cons, first]
      rfl
  | case3 p s q t stepped ih =>
    obtain ⟨calls, same, orderly, run, isOver⟩ := ih
    have first : Call.run (.parseMore handler) (p, s) = (q, t) := congrArg Prod.snd stepped
    refine ⟨.parseMore handler :: calls, ?_, ⟨fun _ other => (by cases other), ?_⟩, ?_, isOver⟩
    · intro call member
      rcases List.mem_cons.mp member with rfl | later
      · rfl
      · exact same call later
    · rw [first]
      exact orderly
    · simpa [first] using run

theorem rows_eq_before {options : Options} {rows left before after : List Record} {wide : Record}
    (same : before ++ wide :: after = rows ++ left) (fits : ∀ r ∈ before, options.Fits r)
    (tooWide : options.maxColumns < wide.length) (narrow : ∀ r ∈ rows, r.length ≤ options.maxColumns)
    (stopped : left = [] ∨ ∃ first rest, left = first :: rest ∧ ¬ options.Fits first) :
    rows = before := by
  induction before generalizing rows with
  | nil =>
    cases rows with
    | nil => rfl
    | cons row rows =>
      obtain ⟨rfl, -⟩ := List.cons.inj same
      exact absurd (narrow wide List.mem_cons_self) (Nat.not_le_of_lt tooWide)
  | cons first before ih =>
    cases rows with
    | nil =>
      rcases stopped with none | ⟨r, rest, some, unfit⟩
      · rw [none] at same
        cases same
      · rw [some] at same
        obtain ⟨rfl, -⟩ := List.cons.inj same
        exact absurd (fits first List.mem_cons_self) unfit
    | cons row rows =>
      obtain ⟨rfl, behind⟩ := List.cons.inj same
      rw [ih behind (fun r member => fits r (List.mem_cons_of_mem _ member))
        fun r member => narrow r (List.mem_cons_of_mem _ member)]

/-! ## Parses of an input -/

theorem runCalls_seen (calls : List (Call β)) (p : Parser) (s : β) :
    runCalls (calls.map Call.watched) (p, [], s) =
      ((runCalls calls (p, s)).1, rowsSeen calls (p, s), (runCalls calls (p, s)).2) := by
  obtain ⟨noted, same⟩ := runCalls_watched calls p [] s
  rw [rowsSeen, same]

theorem Place.runCalls {p : Parser} {n : Nat} {excused : Prop} {rs : List Record}
    (place : Place excused p n rs) {calls : List (Call β)} {s : β}
    (refused : ∀ call ∈ calls, ∀ row t error, (call.handler row t).1 = .error error → excused)
    (orderly : Orderly calls (p, s)) (within : Within (runCalls calls (p, s)).1 n) :
    ∃ left, rs = (rowsSeen calls (p, s)).map Row.cells ++ left ∧
      Place excused (Parser.runCalls calls (p, s)).1 n left := by
  obtain ⟨rows, left, split, place', run⟩ := runCalls_reads calls p [] s refused orderly within place
  rw [runCalls_seen] at run
  have same : rowsSeen calls (p, s) = rows := congrArg (fun state => state.2.1) run
  rw [← same] at split
  exact ⟨left, split, place'⟩

theorem rowsSeen_append (calls later : List (Call β)) (p : Parser) (s : β) :
    rowsSeen (calls ++ later) (p, s) = (runCalls (later.map Call.watched)
      ((runCalls calls (p, s)).1, rowsSeen calls (p, s), (runCalls calls (p, s)).2)).2.1 := by
  rw [← runCalls_seen, rowsSeen, List.map_append, runCalls_append]

theorem counted_calls (calls : List (Call β)) {p : Parser} (s : β) (layout : Layout p) :
    Counted p (runCalls calls (p, s)).1 (rowsSeen calls (p, s)) := by
  have start : Counted p p [] :=
    ⟨rfl, rfl, rfl, rfl, rfl, List.suffix_rfl, fun _ none => absurd none List.not_mem_nil⟩
  exact noted_hold (fun handler => invariant_counted handler p) calls p [] s layout start

variable {content : Bytes} {reads : List ReadEvent} {options : Options}

theorem counted_of_new (made : Parser.new (Source.ofBytes content reads) options = .ok p)
    (calls : List (Call β)) (s : β) :
    Counted (initial (Source.ofBytes content reads) options) (runCalls calls (p, s)).1
      (rowsSeen calls (p, s)) := by
  obtain ⟨-, rfl⟩ := new_inv made
  exact counted_calls calls s (layout_initial _ _)

theorem exists_length (made : Parser.new (Source.ofBytes content reads) options = .ok p)
    (calls : List (Call β)) (s : β) :
    ∃ n, Within (runCalls calls (p, s)).1 n ∧ content.take n = (runCalls calls (p, s)).1.input := by
  have counted := counted_of_new made calls s
  have content' : (runCalls calls (p, s)).1.source.content = content := counted.content
  have extent : (runCalls calls (p, s)).1.source.extent = content.length :=
    counted.extent.trans (Nat.zero_add _)
  have found := (runCalls calls (p, s)).1.exists_within (by rw [extent, content'])
  rw [content'] at found
  exact found

/-- The rows handed over are the front of the records of the input. -/
theorem calls_find (excused : Prop) (made : Parser.new (Source.ofBytes content reads) options = .ok p)
    (single : SingleMark content) {calls : List (Call β)} {s : β}
    (excuses : ∀ detail, .failed detail ∈ reads → excused)
    (refused : ∀ call ∈ calls, ∀ row t error, (call.handler row t).1 = .error error → excused)
    (orderly : Orderly calls (p, s)) (within : Within (runCalls calls (p, s)).1 n) :
    ∃ left, reference options.delimiter (content.take n) =
        (rowsSeen calls (p, s)).map Row.cells ++ left ∧
      Place excused (runCalls calls (p, s)).1 n left := by
  obtain ⟨-, rfl⟩ := new_inv made
  exact (initial_place reads [] options single n excuses).runCalls refused orderly within

/-- A call that fails repeats an earlier failure, was not given what it read, was refused its row, or
has met a record over a limit, which is the next one. -/
theorem call_fails (made : Parser.new (Source.ofBytes content reads) options = .ok p)
    (single : SingleMark content) {calls : List (Call β)} {s : β} (orderly : Orderly calls (p, s))
    {call : Call β} (allowed : call.Allowed (runCalls calls (p, s)).1) {error : Error}
    (answer : call.outcome (runCalls calls (p, s)) = .error error) :
    (∃ description, (runCalls calls (p, s)).1.status = .failed description ∧
        error = .parse description) ∨
      (∃ detail, .failed detail ∈ reads ∧ error = .io detail) ∨
      (∃ row, rowsSeen (calls ++ [call]) (p, s) = rowsSeen calls (p, s) ++ [row] ∧
        (call.handler row (runCalls calls (p, s)).2).1 = .error error) ∨
      (rowsSeen (calls ++ [call]) (p, s) = rowsSeen calls (p, s) ∧
        options.Refuses ((rowsSeen calls (p, s)).length + 1) error) := by
  obtain ⟨n, within, -⟩ := exists_length made (calls ++ [call]) s
  rw [runCalls_concat] at within
  -- The calls before this one may have failed for any reason.
  obtain ⟨left, -, place⟩ := calls_find True made single (fun _ _ => trivial)
    (fun _ _ _ _ _ _ => trivial) orderly within.of_run
  have counted := counted_of_new made calls s
  rw [rowsSeen_append]
  cases call_reads (fun _ _ _ _ => trivial) allowed within place with
  | silent q place done run => cases done.symm.trans answer
  | row q row rest first place done run =>
    refine Or.inr (Or.inr (Or.inl ⟨row, ?_, done.symm.trans answer⟩))
    exact congrArg (fun state => state.2.1) (run _)
  | failed q error' cause place done run =>
    cases done.symm.trans answer
    cases cause with
    | again description failed => exact Or.inl ⟨description, failed, rfl⟩
    | unread detail scheduled => exact Or.inr (Or.inl ⟨detail, counted.reads.mem scheduled, rfl⟩)
    | limit error refuses =>
      refine Or.inr (Or.inr (Or.inr ⟨congrArg (fun state => state.2.1) (run _), ?_⟩))
      rw [counted.options, counted.rows] at refuses
      have first : (initial (Source.ofBytes content reads) options).rows = 0 := rfl
      rw [first, Nat.zero_add] at refuses
      exact refuses

theorem rows_before_wide (made : Parser.new (Source.ofBytes content reads) options = .ok p)
    (single : SingleMark content) {calls : List (Call β)} {s : β} (orderly : Orderly calls (p, s))
    (taken : ∀ call ∈ calls, ∀ row t, (call.handler row t).1 = .ok ())
    (unfailing : ∀ detail, .failed detail ∉ reads) (isOver : (runCalls calls (p, s)).1.IsOver)
    {before after : List Record} {wide : Record}
    (records : reference options.delimiter (runCalls calls (p, s)).1.input =
      before ++ wide :: after)
    (fits : ∀ r ∈ before, options.Fits r) (tooWide : options.maxColumns < wide.length) :
    (rowsSeen calls (p, s)).map Row.cells = before := by
  obtain ⟨n, within, input⟩ := exists_length made calls s
  -- No read fails and no row is refused, so only a record over a limit can stop the parse early.
  obtain ⟨left, split, place⟩ := calls_find False made single
    (fun detail scheduled => unfailing detail scheduled)
    (fun call member row t error refused => by
      rw [taken call member row t] at refused
      cases refused) orderly within
  have counted := counted_of_new made calls s
  rw [input] at split
  refine rows_eq_before (records.symm.trans split) fits tooWide ?_ ?_
  · intro r member
    obtain ⟨row, seen, rfl⟩ := List.mem_map.mp member
    exact (counted.within row seen).1
  · cases place with
    | ready status => exact absurd status isOver.1
    | exhausted status => exact absurd status isOver.2
    | finished status none => exact Or.inl none
    | failed description status cause =>
      obtain ⟨first, rest, some, unfit⟩ := cause.resolve_left id
      rw [counted.options] at unfit
      exact Or.inr ⟨first, rest, some, unfit⟩

theorem input_of_sound (made : Parser.new (Source.ofBytes content reads) options = .ok p)
    (single : SingleMark content) {calls : List (Call β)} {s : β} (orderly : Orderly calls (p, s))
    (sound : ∀ event ∈ reads, event.isSound = true) :
    (runCalls calls (p, s)).1.input = content := by
  have counted := counted_of_new made calls s
  have content' : (runCalls calls (p, s)).1.source.content = content := counted.content
  obtain ⟨allowed, rfl⟩ := new_inv made
  unfold input
  split
  · rename_i atEnd
    have ended := runCalls_ended calls _ s orderly
      (initial_place reads [] options single _ fun _ _ => trivial)
      (by intro ended; cases ended) (fun _ => initial_supplied sound allowed) atEnd
    have extent := counted.extent
    rw [Source.extent, ended, List.length_nil, Nat.add_zero] at extent
    rw [content', extent]
    exact List.take_of_length_le (Nat.le_of_eq (Nat.zero_add _).symm)
  · exact content'

theorem rows_within (made : Parser.new (Source.ofBytes content reads) options = .ok p)
    (calls : List (Call β)) (s : β)
    (front : (rowsSeen calls (p, s)).map Row.cells <+:
      reference options.delimiter (runCalls calls (p, s)).1.input) :
    ∀ row ∈ rowsSeen calls (p, s), 1 ≤ row.cells.length ∧
      row.cells.length ≤ options.maxColumns ∧ recordSize row.cells ≤ options.bufferSize := by
  intro row seen
  have some : row.cells ≠ [] :=
    records_filled _ _ _ (front.subset (List.mem_map.mpr ⟨row, seen, rfl⟩))
  exact ⟨List.length_pos_iff.mpr some, (counted_of_new made calls s).within row seen⟩

theorem calls_after_failure (p : Parser) (calls later : List (Call β)) {call : Call β} {s : β}
    {error : Error}
    (first : ∀ description, (runCalls calls (p, s)).1.status ≠ .failed description)
    (answer : call.outcome (runCalls calls (p, s)) = .error error) :
    runCalls later (call.run (runCalls calls (p, s))) = call.run (runCalls calls (p, s)) ∧
      rowsSeen (calls ++ call :: later) (p, s) = rowsSeen (calls ++ [call]) (p, s) ∧
      ∀ next : Call β, next.outcome (runCalls later (call.run (runCalls calls (p, s)))) =
        .error (.parse error.message) := by
  have failed : (call.run (runCalls calls (p, s))).1.status = .failed error.message :=
    failed_of_outcome first answer
  have stays : runCalls later (call.run (runCalls calls (p, s))) =
      call.run (runCalls calls (p, s)) := run_failed failed later _
  refine ⟨stays, ?_, fun next => ?_⟩
  · rw [List.append_cons, rowsSeen_append (calls ++ [call]) later, runCalls_concat,
      run_failed failed]
  · rw [stays]
    exact ((call_over next _).2 _ failed).1

end Parser

/-- Whatever its source does, a parse hands over the first records of its input as they are, each
within the limits. A failure names the record that comes next or is none of the parse, and the parse
stays as it is ever after. If no read fails and every row is taken, a complete parse stops at the
first record with too many cells, once those in front of it fit. -/
theorem failures_are_clean {content : Bytes} {reads : List ReadEvent} {options : Options}
    {p : Parser} (made : Parser.new (Source.ofBytes content reads) options = .ok p)
    (single : SingleMark content) {β : Type} (calls : List (Parser.Call β)) (s : β) :
    let now := Parser.runCalls calls (p, s)
    let rows := Parser.rowsSeen calls (p, s)
    (Parser.Orderly calls (p, s) →
      rows.map Row.cells <+: reference options.delimiter now.1.input ∧
      ((∀ event ∈ reads, event.isSound = true) → now.1.input = content) ∧
      (∀ row ∈ rows, 1 ≤ row.cells.length ∧ row.cells.length ≤ options.maxColumns ∧
        recordSize row.cells ≤ options.bufferSize) ∧
      (∀ (call : Parser.Call β) error, call.Allowed now.1 → call.outcome now = .error error →
        let seen := Parser.rowsSeen (calls ++ [call]) (p, s)
        (∃ description, now.1.status = .failed description ∧ error = .parse description) ∨
        (∃ detail, .failed detail ∈ reads ∧ error = .io detail) ∨
        (∃ row, seen = rows ++ [row] ∧ (call.handler row now.2).1 = .error error) ∨
        (seen = rows ∧ options.Refuses (rows.length + 1) error)) ∧
      ((∀ call ∈ calls, ∀ row t, (call.handler row t).1 = .ok ()) →
        (∀ detail, .failed detail ∉ reads) → now.1.IsOver → ∀ before wide after,
        reference options.delimiter now.1.input = before ++ wide :: after →
        (∀ r ∈ before, options.Fits r) → options.maxColumns < wide.length →
        rows.map Row.cells = before)) ∧
    (∀ handler : RowHandler β, ∃ complete : List (Parser.Call β),
      (∀ call ∈ complete, call.handler = handler) ∧ Parser.Orderly complete (p, s) ∧
      Parser.runCalls complete (p, s) = (p.drain handler s).2 ∧ (p.drain handler s).2.1.IsOver) ∧
    ∀ (call : Parser.Call β) error, (∀ description, now.1.status ≠ .failed description) →
      call.outcome now = .error error → ∀ later : List (Parser.Call β),
      Parser.runCalls later (call.run now) = call.run now ∧
      Parser.rowsSeen (calls ++ call :: later) (p, s) =
        Parser.rowsSeen (calls ++ [call]) (p, s) ∧
      ∀ next : Parser.Call β, next.outcome (Parser.runCalls later (call.run now)) =
        .error (.parse error.message) := by
  intro now rows
  refine ⟨fun orderly => ?_, fun handler => Parser.drain_calls handler p s,
    fun call error first answer later => Parser.calls_after_failure p calls later first answer⟩
  have front : rows.map Row.cells <+: reference options.delimiter now.1.input := by
    obtain ⟨n, within, input⟩ := Parser.exists_length made calls s
    obtain ⟨left, split, -⟩ := Parser.calls_find True made single
      (fun _ _ => trivial) (fun _ _ _ _ _ _ => trivial) orderly within
    rw [input] at split
    exact ⟨left, split.symm⟩
  exact ⟨front, Parser.input_of_sound made single orderly, Parser.rows_within made calls s front,
    fun call error allowed answer => Parser.call_fails made single orderly allowed answer,
    fun taken unfailing isOver before wide after records fits tooWide =>
      Parser.rows_before_wide made single orderly taken unfailing isOver records fits tooWide⟩

/-- The second record of `a,b\n1,2,3\n4` has too many cells. -/
theorem failures_are_clean_at_wide_record :
    let content : Bytes := [97, 44, 98, 10, 49, 44, 50, 44, 51, 10, 52]
    let reads : List ReadEvent := [.atMost 1, .interrupted, .atMost 5]
    let options : Options := { maxColumns := 2, bufferSize := 4, readChunk := 2 }
    let p := Parser.initial (Source.ofBytes content reads) options
    let take : Parser.Call Unit := .parseMore fun _ s => (.ok (), s)
    Parser.new (Source.ofBytes content reads) options = .ok p ∧
      (Parser.rowsSeen [take, take] (p, ())).map Row.cells = [[⟨[97], false⟩, ⟨[98], false⟩]] ∧
      ∀ later next, Parser.Call.outcome next (Parser.runCalls later
        (take.run (Parser.runCalls [take] (p, ())))) =
          .error (.parse (Error.tooManyColumns 2 2).message) := by
  intro content reads options p take
  have made : Parser.new (Source.ofBytes content reads) options = .ok p := rfl
  have single : SingleMark content := by decide
  have allowed : ∀ q, take.Allowed q := by
    intro q handler other
    simp [take] at other
  obtain ⟨clean, -, -⟩ := failures_are_clean made single [take, take] ()
  obtain ⟨-, input, -, -, stops⟩ := clean ⟨allowed _, allowed _, trivial⟩
  obtain ⟨-, -, frozen⟩ := failures_are_clean made single [take] ()
  have records : reference options.delimiter content =
      [[⟨[97], false⟩, ⟨[98], false⟩]] ++
        [⟨[49], false⟩, ⟨[50], false⟩, ⟨[51], false⟩] :: [[⟨[52], false⟩]] := by
    decide +kernel
  have status : (Parser.runCalls [take, take] (p, ())).1.status =
      .failed (Error.tooManyColumns 2 2).message := by decide +kernel
  have first : (Parser.runCalls [take] (p, ())).1.status = .ready := by decide +kernel
  have answer : take.outcome (Parser.runCalls [take] (p, ())) =
      .error (.tooManyColumns 2 2) := by decide +kernel
  have isOver : (Parser.runCalls [take, take] (p, ())).1.IsOver := by
    constructor <;> rw [status] <;> exact ParserStatus.noConfusion
  rw [input (by decide)] at stops
  refine ⟨made, stops ?_ (by simp [reads]) isOver _ _ _ records (by decide) (by decide), ?_⟩
  · intro call member row t
    have same : call = take := by simpa using member
    rw [same]
    rfl
  · intro later next
    exact (frozen take _ (by rw [first]; exact fun _ => ParserStatus.noConfusion) answer later).2.2
      next

end Tabular.Csv
