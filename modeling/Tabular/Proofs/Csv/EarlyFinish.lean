import Tabular.Proofs.Csv.Failures

/-!
Finishing a parse wherever it stands. What was read so far is then the whole input: finishing hands
over the records that are left of it, all in one generation, and nothing comes after them.
-/
namespace Tabular.Csv

open Grammar

namespace Parser

variable {p : Parser} {n : Nat} {β : Type} {excused : Prop}

/-! ## The records in the window -/

/-- The rows that the input already read brings one behind the other, the records behind them, and
how looking for these ends. -/
inductive Brings : Parser → List Row → List Record → Except Error Unit → Prop where
  | nothing {p : Parser} (none : p.ahead p.window.pending = []) : Brings p [] [] (.ok ())
  | row {p : Parser} {rows : List Row} {left : List Record} {ending : Except Error Unit}
      (q : Parser) (whole : Whole q) (continues : Continues p q)
      (first : p.ahead p.window.pending =
        q.doneCells :: records q.tokenizer.delimiter q.window.pending)
      (later : Brings q.afterRow rows left ending) :
      Brings p (q.completedRow :: rows) left ending
  | failed {p : Parser} (error : Error) (first : Record) (rest : List Record)
      (ahead : p.ahead p.window.pending = first :: rest) (exceeds : p.Exceeds first error) :
      Brings p [] (first :: rest) (.error error)

variable {rows : List Row} {left : List Record} {ending : Except Error Unit}

theorem Whole.ahead_window (whole : Whole p) : p.afterRow.ahead p.afterRow.window.pending =
    records p.tokenizer.delimiter p.window.pending := whole.ahead_afterRow _

theorem Brings.split (brings : Brings p rows left ending) :
    p.ahead p.window.pending = rows.map Row.cells ++ left := by
  induction brings with
  | nothing none => exact none
  | failed error first rest ahead exceeds => exact ahead
  | row q whole continues first later ih =>
    rw [whole.ahead_window] at ih
    rw [first, ih]
    rfl

theorem Brings.numbers (brings : Brings p rows left ending) :
    rows.map Row.number = List.range' (p.rows + 1) rows.length := by
  induction brings with
  | nothing | failed => rfl
  | @row p rows _ _ q whole continues first later ih =>
    have numbered : q.rows = p.rows := continues.rows
    rw [List.map_cons, ih, List.length_cons, List.range'_succ]
    show (q.rows + 1) :: List.range' (q.rows + 1 + 1) _ = _
    rw [numbered]

theorem Brings.generation (brings : Brings p rows left ending) :
    ∀ row ∈ rows, row.generation = p.generation := by
  induction brings with
  | nothing | failed => exact fun row none => absurd none List.not_mem_nil
  | row q whole continues first later ih =>
    intro row member
    rcases List.mem_cons.mp member with rfl | behind
    · exact continues.generation
    · exact (ih row behind).trans continues.generation

/-- Rows of one generation are not moved to the front of the memory, so there has to be room for all
of them together. -/
theorem Brings.all_of_room (brings : Brings p rows left ending)
    (narrow : ∀ r ∈ p.ahead p.window.pending, r.length ≤ p.options.maxColumns)
    (room : p.rowStart + textSize (p.ahead p.window.pending) < p.buffer.capacity) :
    left = [] ∧ ending = .ok () := by
  induction brings with
  | nothing none => exact ⟨rfl, rfl⟩
  | failed error first rest ahead exceeds =>
    rw [ahead, textSize_cons] at room
    exact absurd exceeds (not_exceeds (narrow first (by rw [ahead]; exact List.mem_cons_self))
      (by omega))
  | @row p rows left ending q whole continues first later ih =>
    have filled := whole.toLayout.recordSize_doneCells
    rw [whole.fieldStart, continues.rowStart] at filled
    rw [first, textSize_cons] at room
    rw [first] at narrow
    apply ih
    · intro r member
      rw [whole.ahead_window] at member
      show r.length ≤ q.options.maxColumns
      rw [continues.options]
      exact narrow r (List.mem_cons_of_mem _ member)
    · rw [whole.ahead_window]
      show q.buffer.live.size + _ < q.buffer.capacity
      rw [continues.bufferCapacity]
      omega

theorem flush_hands (p : Parser) (rests : Coherent p ∨ Over p)
    (unmarked : Unmarked p p.window.pending) :
    ∃ rows left ending, Brings p rows left ending ∧
      ∀ (β : Type) (handler : RowHandler β) (s : β), ∃ q,
        p.flush handler s = ((feed handler rows s).1 *> ending, q, (feed handler rows s).2) := by
  have found := p.flushRow_reads rests unmarked
  have less := p.bufferedWork_flushRow_lt
  rcases result : p.flushRow with ⟨outcome, q⟩
  rw [result] at found less
  cases found with
  | noMore q none =>
    refine ⟨[], [], .ok (), .nothing none, fun β handler s => ⟨q, ?_⟩⟩
    rw [flush, result]
    rfl
  | failed error q first rest ahead exceeds full =>
    refine ⟨[], _, .error error, .failed error first rest ahead exceeds,
      fun β handler s => ⟨q, ?_⟩⟩
    rw [flush, result]
    rfl
  | row q whole continues first =>
    have shorter : q.afterRow.bufferedWork < p.bufferedWork := less rfl
    obtain ⟨rows, left, ending, later, run⟩ :=
      flush_hands q.afterRow (Or.inl whole.afterRow) (unmarked_of_started whole.started _)
    refine ⟨q.completedRow :: rows, left, ending, .row q whole continues first later,
      fun β handler s => ?_⟩
    rw [flush, result, feed]
    dsimp only
    rcases handled : handler q.completedRow s with ⟨error | _, t⟩
    · exact ⟨q.afterRow, rfl⟩
    · exact run β handler t
termination_by p.bufferedWork

/-! ## Finishing -/

structure Closing (p : Parser) (left : List Record) : Prop where
  rests : Coherent p.atFinish ∨ Over p.atFinish
  unmarked : Unmarked p.atFinish p.atFinish.window.pending
  ahead : p.atFinish.ahead p.atFinish.window.pending = left
  continues : Continues p.beginGeneration p.atFinish

theorem Untouched.closing (untouched : Untouched p)
    (single : startsWithMark ((withoutMark p.window.pending).dropWhile Byte.isLineBreak) = false) :
    Closing p (p.ahead (withoutMark p.window.pending)) := by
  have begun : Untouched { p.beginGeneration with atEnd := true } :=
    { untouched.toCoherent.beginGeneration with
      unchecked := untouched.unchecked
      rows := untouched.rows
      none := (hasRecord_beginGeneration p).trans untouched.none
      front := untouched.front }
  have atFinish : p.atFinish = { p.beginGeneration with atEnd := true }.skipMark := by
    rw [Parser.atFinish, untouched.unchecked, if_neg Bool.false_ne_true]
  have unmarked := begun.skipMark (Or.inl rfl)
  rw [List.append_nil, List.append_nil] at unmarked
  have window : p.atFinish.window.pending = withoutMark p.window.pending := by
    rw [atFinish]
    exact unmarked
  have continues := (Move.skipMark { p.beginGeneration with atEnd := true }).continues
  have none : p.atFinish.hasRecord = false := by
    rw [atFinish]
    exact begun.none
  refine ⟨Or.inl ?_, ?_, ?_, ?_⟩
  · rw [atFinish]
    exact { begun.toCoherent with }
  · rw [window]
    exact fun _ => single
  · rw [window, ahead_of_noRecord none, ahead_of_noRecord untouched.none, atFinish]
    rfl
  · rw [atFinish]
    exact { continues with }

theorem closing_of_checked (checked : p.markChecked = true) (rests : Coherent p ∨ Over p)
    (unmarked : Unmarked p p.window.pending) : Closing p (p.ahead p.window.pending) := by
  obtain ⟨atFinish, rests', unmarked', same⟩ := atFinish_reads checked rests unmarked
  refine ⟨rests', unmarked', same, ?_⟩
  rw [atFinish]
  exact { Continues.refl p.beginGeneration with }

theorem Place.going (place : Place excused p n left)
    (open_ : p.status = .ready ∨ p.status = .exhausted) : Going excused p := by
  cases place with
  | ready status going => exact going
  | exhausted status going => exact going
  | finished status none => rcases open_ with open_ | open_ <;> cases status.symm.trans open_
  | failed description status cause =>
    rcases open_ with open_ | open_ <;> cases status.symm.trans open_

/-- Wherever a parse stands that could go on, what is left of the bytes read so far is what finishing
looks through. -/
theorem Place.closing (place : Place excused p p.source.offset left)
    (open_ : p.status = .ready ∨ p.status = .exhausted) : Closing p left := by
  have whole : p.textTo p.source.offset = p.window.pending := by
    simp [textTo]
  cases place with
  | ready status going text awaits same =>
    subst same
    cases awaits with
    | fresh untouched same single =>
      rw [← same, whole] at single ⊢
      exact untouched.closing single
    | standing stands checked same =>
      have unmarked := stands.unmarked
      rw [← same]
      rw [whole] at unmarked ⊢
      exact closing_of_checked checked (Or.inl stands.toCoherent) unmarked
  | exhausted status going rests checked used same =>
    rw [whole] at used
    have closing := closing_of_checked checked rests (by
      rw [used]
      exact fun _ => rfl)
    rw [used, same] at closing
    exact closing
  | finished status none => rcases open_ with open_ | open_ <;> cases status.symm.trans open_
  | failed description status cause =>
    rcases open_ with open_ | open_ <;> cases status.symm.trans open_

/-- What finishing hands over, whatever its handler does: the first of the records that are left, in
one generation and numbered on, and all of them if they are within the limits together. -/
theorem Place.finish (place : Place excused p p.source.offset left)
    (open_ : p.status = .ready ∨ p.status = .exhausted) :
    ∃ rows left' ending, left = rows.map Row.cells ++ left' ∧
      rows.map Row.number = List.range' (p.rows + 1) rows.length ∧
      (∀ row ∈ rows, row.generation = p.generation + 1) ∧
      ((∀ r ∈ left, r.length ≤ p.options.maxColumns) → textSize left < p.options.bufferSize →
        left' = [] ∧ ending = .ok ()) ∧
      ∀ (β : Type) (handler : RowHandler β) (s : β), ∃ q,
        p.finish handler s = ((feed handler rows s).1 *> ending, q, (feed handler rows s).2) ∧
          q.status = statusFinished ((feed handler rows s).1 *> ending) := by
  have closing := place.closing open_
  obtain ⟨rows, left', ending, brings, run⟩ := p.atFinish.flush_hands closing.rests closing.unmarked
  have split := brings.split
  have numbers := brings.numbers
  rw [closing.ahead] at split
  rw [closing.continues.rows] at numbers
  refine ⟨rows, left', ending, split, numbers, fun row member => ?_, fun narrow room => ?_,
    fun β handler s => ?_⟩
  · exact (brings.generation row member).trans closing.continues.generation
  · have capacity : p.atFinish.buffer.capacity = p.options.bufferSize :=
      closing.continues.bufferCapacity.trans (by simpa using (place.going open_).bufferSize)
    have front : p.atFinish.rowStart = 0 := closing.continues.rowStart
    apply brings.all_of_room
    · rw [closing.ahead, closing.continues.options]
      exact narrow
    · rw [closing.ahead, front, capacity, Nat.zero_add]
      exact room
  · obtain ⟨q, flushed⟩ := run β handler s
    exact ⟨_, finish_open handler open_ flushed, rfl⟩

/-! ## After steps that succeed -/

theorem not_failed_of_ok {handler : RowHandler β} {s : β}
    (answer : Call.outcome (.parseMore handler) (p, s) = .ok ()) (description : String) :
    (Call.run (.parseMore handler) (p, s)).1.status ≠ .failed description := by
  by_cases ready : p.status = .ready
  · have continues := p.beginGeneration.look_moves.continues
    unfold Call.outcome at answer
    unfold Call.run
    dsimp only at answer ⊢
    rw [parseMore_look handler ready] at answer ⊢
    rcases looked : p.beginGeneration.look with ⟨error | _ | _, q⟩
    · rw [looked] at answer
      cases answer
    · rw [looked] at answer continues
      have going : q.status = .ready := continues.status.trans ready
      dsimp only [handOver] at answer ⊢
      rcases handled : handler q.completedRow s with ⟨error | _, t⟩
      · rw [handled] at answer
        cases answer
      · show q.status ≠ _
        rw [going]
        exact ParserStatus.noConfusion
    · exact ParserStatus.noConfusion
  · rw [Call.run, parseMore_over handler s ready]
    intro failed
    rw [((call_over (.parseMore handler) s).2 description failed).1] at answer
    cases answer

theorem orderly_steps (handler : RowHandler β) (k : Nat) (state : Parser × β) :
    Orderly (List.replicate k (.parseMore handler)) state := by
  induction k generalizing state with
  | zero => trivial
  | succ k ih => exact ⟨fun _ other => (by cases other), ih _⟩

theorem idle_of_finished (finished : p.status = .finished) (γ : Type) (again : RowHandler γ) (t : γ) :
    p.parseMore again t = (.ok .noMoreInput, p, t) ∧ p.finish again t = (.ok (), p, t) := by
  unfold parseMore finish
  rw [finished]
  exact ⟨rfl, rfl⟩

theorem Place.finish_all {handler : RowHandler β} (place : Place excused p p.source.offset left)
    (takes : ∀ row t, (handler row t).1 = .ok ()) {s : β}
    (working : ∀ description, p.status ≠ .failed description)
    (narrow : ∀ r ∈ left, r.length ≤ p.options.maxColumns)
    (room : textSize left < p.options.bufferSize) :
    (p.finish handler s).1 = .ok () ∧
      (∃ rows, rows.map Row.cells = left ∧
        ∀ seen, (p.finish (watched handler) (seen, s)).2.2.1 = seen ++ rows) ∧
      (p.finish handler s).2.1.status = .finished ∧
      (p.finish handler s).2.1.source = p.source := by
  by_cases open_ : p.status = .ready ∨ p.status = .exhausted
  · obtain ⟨rows, left', ending, split, -, -, all, run⟩ := place.finish open_
    obtain ⟨rfl, rfl⟩ := all narrow room
    rw [List.append_nil] at split
    obtain ⟨q, finished, status⟩ := run β handler s
    refine ⟨?_, ⟨rows, split.symm, fun seen => ?_⟩, ?_, (p.finish_keeps handler s open_).1⟩
    · rw [finished, feed_takes takes]
      rfl
    · obtain ⟨r, noted, -⟩ := run _ (watched handler) (seen, s)
      rw [noted, feed_watched takes]
    · rw [finished, status, feed_takes takes]
      rfl
  · have ended : p.status = .finished := by
      rcases status : p.status with _ | _ | _ | description
      · exact absurd (Or.inl status) open_
      · exact absurd (Or.inr status) open_
      · rfl
      · exact absurd status (working description)
    have idle := idle_of_finished ended
    rw [(idle β handler s).2]
    refine ⟨rfl, ⟨[], ?_, fun seen => ?_⟩, ended, rfl⟩
    · cases place with
      | finished status none => exact none.symm
      | ready status => cases ended.symm.trans status
      | exhausted status => cases ended.symm.trans status
      | failed description status => cases ended.symm.trans status
    · rw [(idle _ (watched handler) (seen, s)).2, List.append_nil]

variable {content : Bytes} {reads : List ReadEvent} {options : Options}

theorem steps_not_failed (made : Parser.new (Source.ofBytes content reads) options = .ok p)
    {handler : RowHandler β} {s : β} {k : Nat}
    (succeed : ∀ j < k, Call.outcome (.parseMore handler)
      (runCalls (List.replicate j (.parseMore handler)) (p, s)) = .ok ()) (description : String) :
    (runCalls (List.replicate k (.parseMore handler)) (p, s)).1.status ≠ .failed description := by
  cases k with
  | zero =>
    obtain ⟨-, rfl⟩ := new_inv made
    exact ParserStatus.noConfusion
  | succ k =>
    rw [List.replicate_succ', runCalls_concat]
    exact not_failed_of_ok (succeed k (Nat.lt_succ_self k)) description

theorem calls_stand {content : Bytes} (reads : List ReadEvent) (seeks : List (Option String))
    (options : Options) (single : SingleMark content) {calls : List (Call β)} {s : β}
    (orderly : Orderly calls (initial (Source.ofBytes content reads seeks) options, s)) :
    let now := runCalls calls (initial (Source.ofBytes content reads seeks) options, s)
    ∃ left, reference options.delimiter (content.take now.1.source.offset) =
        (rowsSeen calls (initial (Source.ofBytes content reads seeks) options, s)).map Row.cells ++
          left ∧ Place True now.1 now.1.source.offset left := by
  intro now
  exact (initial_place reads seeks options single _ fun _ _ => trivial).runCalls
    (fun _ _ _ _ _ _ => trivial) orderly ⟨Nat.le_refl _, fun _ => rfl⟩

end Parser

/-- A parse that is finished after any number of steps, each of which has succeeded, takes the bytes
read so far for the whole input: what the steps have left of their records is handed over, if it is
narrow enough and fits into the memory together. The source is not asked again, and the parse is
over. -/
theorem early_finish_delivers_input_read {content : Bytes} {reads : List ReadEvent}
    {options : Options} {p : Parser}
    (made : Parser.new (Source.ofBytes content reads) options = .ok p) (single : SingleMark content)
    {β : Type} (handler : RowHandler β) (takes : ∀ row t, (handler row t).1 = .ok ()) (s : β) (k : Nat)
    (succeed : ∀ j < k, Parser.Call.outcome (.parseMore handler)
      (Parser.runCalls (List.replicate j (.parseMore handler)) (p, s)) = .ok ()) :
    let steps := List.replicate k (Parser.Call.parseMore handler)
    let now := Parser.runCalls steps (p, s)
    let rs := reference options.delimiter (content.take now.1.source.offset)
    let left := rs.drop (Parser.rowsSeen steps (p, s)).length
    (∀ r ∈ left, r.length ≤ options.maxColumns) → textSize left < options.bufferSize →
      let rows := Parser.rowsSeen (steps ++ [.finish handler]) (p, s)
      let ended := Parser.Call.run (.finish handler) now
      Parser.Call.outcome (.finish handler) now = .ok () ∧
        rows.map Row.cells = rs ∧ ended.1.source = now.1.source ∧
        ∀ (γ : Type) (again : RowHandler γ) (t : γ),
          ended.1.parseMore again t = (.ok .noMoreInput, ended.1, t) ∧
          ended.1.finish again t = (.ok (), ended.1, t) := by
  intro steps now rs left narrow room rows ended
  have begun := (Parser.new_inv made).2
  obtain ⟨left', split, place⟩ := Parser.calls_stand reads [] options single
    (by rw [← show p = _ from begun]; exact Parser.orderly_steps handler k (p, s))
  rw [← show p = _ from begun] at split place
  have same : left' = left := by
    show left' = (reference options.delimiter _).drop _
    rw [split, List.drop_left' (List.length_map _)]
  subst same
  have options' : now.1.options = options := (Parser.counted_of_new made steps s).options
  obtain ⟨finished, seen, status, source⟩ := place.finish_all takes (Parser.steps_not_failed made succeed)
    (by rw [options']; exact narrow) (by rw [options']; exact room)
  refine ⟨finished, ?_, source, Parser.idle_of_finished status⟩
  show (Parser.rowsSeen (steps ++ [.finish handler]) (p, s)).map Row.cells = rs
  obtain ⟨more, cells, noted⟩ := seen
  rw [Parser.rowsSeen_append]
  show ((now.1.finish (Parser.watched handler) (Parser.rowsSeen steps (p, s), now.2)).2.2.1).map _ = rs
  rw [noted, List.map_append, cells]
  exact split.symm

/-- Of `x\n"a""b"\r\ny` with a mark in front, what has been read when the first record is delivered
ends within the second line break, so that there is another record to come from finishing. -/
theorem early_finish_within_line_break :
    let content : Bytes :=
      [0xEF, 0xBB, 0xBF, 120, 10, 34, 97, 34, 34, 98, 34, 13, 10, 121]
    let options : Options := { bufferSize := 4, readChunk := 12 }
    let p := Parser.initial (Source.ofBytes content [.interrupted]) options
    let rs : List Record := [[⟨[120], false⟩], [⟨[97, 34, 98], true⟩]]
    let steps : List (Parser.Call (List Record)) := [.parseMore keepCells]
    (Parser.runCalls steps (p, [])).2 = [[⟨[120], false⟩]] ∧
      (Parser.runCalls steps (p, [])).1.source.rest = [10, 121] ∧
      (Parser.rowsSeen (steps ++ [.finish keepCells]) (p, [])).map Row.cells = rs := by
  intro content options p rs steps
  have made : Parser.new (Source.ofBytes content [.interrupted]) options =
      .ok p := rfl
  have succeed : ∀ j < 1, Parser.Call.outcome (.parseMore keepCells)
      (Parser.runCalls (List.replicate j (.parseMore keepCells)) (p, [])) = .ok () := by
    decide +kernel
  have read : (Parser.runCalls steps (p, [])).1.source.offset = 12 ∧
      (Parser.runCalls steps (p, [])).2 = [[⟨[120], false⟩]] ∧
      (Parser.runCalls steps (p, [])).1.source.rest = [10, 121] := by
    decide +kernel
  have records : reference options.delimiter (content.take 12) = rs := by decide +kernel
  obtain ⟨-, cells, -⟩ := early_finish_delivers_input_read made (by decide) keepCells
    (fun _ _ => rfl) [] 1 succeed
    (by
      rw [show List.replicate 1 _ = steps from rfl, read.1, records]
      decide +kernel)
    (by
      rw [show List.replicate 1 _ = steps from rfl, read.1, records]
      decide +kernel)
  rw [show List.replicate 1 _ = steps from rfl, read.1, records] at cells
  exact ⟨read.2.1, read.2.2, cells⟩

end Tabular.Csv
