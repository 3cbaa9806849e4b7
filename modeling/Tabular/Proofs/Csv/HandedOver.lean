import Tabular.Proofs.Csv.EarlyFinish

/-!
What a parse hands over does not depend on what becomes of the rows, as long as they are taken. So
the rows of a parse can be told from its calls alone: they are numbered from 1, and they are the
first records of the bytes that were read, in whatever order the calls come.
-/
namespace Tabular.Csv

open Grammar

namespace Parser

variable {p q : Parser} {β : Type} {rows : List Row}

def takeAll : RowHandler Unit := fun _ _ => (.ok (), ())

/-! ## One call -/

/-- A step comes to `outcome` and hands over `rows`, whoever takes them. -/
structure Steps (p : Parser) (outcome : Except Error StepOutcome) (q : Parser) (rows : List Row) :
    Prop where
  single : rows.length ≤ 1
  row : outcome = .ok .row → ∃ row, rows = [row]
  none : outcome ≠ .ok .row → rows = []
  failed : ∀ error, outcome = .error error → ∃ description, q.status = .failed description
  run : ∀ {β : Type} {handler : RowHandler β}, (∀ row t, (handler row t).1 = .ok ()) → ∀ s,
    p.parseMore handler s = (outcome, q, (feed handler rows s).2)

theorem exists_steps (p : Parser) : ∃ outcome q rows, Steps p outcome q rows := by
  cases status : p.status with
  | failed description =>
    refine ⟨.error (.parse description), p, [], Nat.zero_le _, fun other => (by cases other),
      fun _ => rfl, fun error _ => ⟨description, status⟩, fun takes s => ?_⟩
    rw [parseMore, status]
    rfl
  | finished | exhausted =>
    refine ⟨.ok .noMoreInput, p, [], Nat.zero_le _, fun other => (by cases other), fun _ => rfl,
      fun error other => (by cases other), fun takes s => ?_⟩
    rw [parseMore, status]
    rfl
  | ready =>
    rcases found : p.beginGeneration.look with ⟨error | _ | _, q⟩
    · refine ⟨.error error, { q with status := .failed error.message }, [], Nat.zero_le _,
        fun other => (by cases other), fun _ => rfl, fun _ _ => ⟨_, rfl⟩, fun takes s => ?_⟩
      rw [parseMore_look _ status, found]
      rfl
    · refine ⟨.ok .row, q.afterRow, [q.completedRow], Nat.le_refl _, fun _ => ⟨_, rfl⟩,
        fun other => absurd rfl other, fun error other => (by cases other), fun {_ handler} takes s => ?_⟩
      have handled : handler q.completedRow s = (.ok (), (handler q.completedRow s).2) :=
        Prod.ext (takes _ _) rfl
      rw [parseMore_look _ status, found, feed, handOver, handled]
      rfl
    · refine ⟨.ok .noMoreInput, { q with status := .exhausted }, [], Nat.zero_le _,
        fun other => (by cases other), fun _ => rfl, fun error other => (by cases other),
        fun takes s => ?_⟩
      rw [parseMore_look _ status, found]
      rfl

structure Finishes (p : Parser) (outcome : Except Error Unit) (q : Parser) (rows : List Row) :
    Prop where
  ended : q.IsOver
  failed : ∀ error, outcome = .error error → ∃ description, q.status = .failed description
  idle : p.IsOver → rows = []
  run : ∀ {β : Type} {handler : RowHandler β}, (∀ row t, (handler row t).1 = .ok ()) → ∀ s,
    p.finish handler s = (outcome, q, (feed handler rows s).2)

theorem exists_flushed (p : Parser) : ∃ outcome q rows, ∀ {β : Type} {handler : RowHandler β},
    (∀ row t, (handler row t).1 = .ok ()) → ∀ s,
      p.flush handler s = (outcome, q, (feed handler rows s).2) := by
  have less := p.bufferedWork_flushRow_lt
  rcases found : p.flushRow with ⟨error | _ | _, q⟩ <;> rw [found] at less
  · refine ⟨.error error, q, [], fun takes s => ?_⟩
    rw [flush, found]
    rfl
  · have shorter : q.afterRow.bufferedWork < p.bufferedWork := less rfl
    obtain ⟨outcome, r, rows, later⟩ := exists_flushed q.afterRow
    refine ⟨outcome, r, q.completedRow :: rows, fun {_ handler} takes s => ?_⟩
    have handled : handler q.completedRow s = (.ok (), (handler q.completedRow s).2) :=
      Prod.ext (takes _ _) rfl
    rw [flush, found, feed]
    dsimp only
    rw [handled]
    exact later takes _
  · refine ⟨.ok (), q, [], fun takes s => ?_⟩
    rw [flush, found]
    rfl
termination_by p.bufferedWork

theorem exists_finishes (p : Parser) : ∃ outcome q rows, Finishes p outcome q rows := by
  by_cases open_ : p.status = .ready ∨ p.status = .exhausted
  · obtain ⟨outcome, q, rows, flushed⟩ := p.atFinish.exists_flushed
    refine ⟨outcome, { q with status := statusFinished outcome }, rows, ?_, ?_, ?_,
      fun takes s => finish_open _ open_ (flushed takes s)⟩
    · cases outcome <;> exact ⟨ParserStatus.noConfusion, ParserStatus.noConfusion⟩
    · rintro error rfl
      exact ⟨_, rfl⟩
    · exact fun ended => absurd open_ (not_or.mpr ended)
  · have ended := not_or.mp open_
    rcases status : p.status with _ | _ | _ | description
    · exact absurd status ended.1
    · exact absurd status ended.2
    · exact ⟨.ok (), p, [], ended, fun error other => (by cases other), fun _ => rfl,
        fun takes s => (idle_of_finished status _ _ s).2⟩
    · refine ⟨.error (.parse description), p, [], ended, fun _ _ => ⟨_, status⟩, fun _ => rfl,
        fun takes s => ?_⟩
      rw [finish, status]
      rfl

/-! ## Any calls -/

theorem rowsSeen_concat (calls : List (Call β)) (call : Call β) (p : Parser) (s : β) :
    rowsSeen (calls ++ [call]) (p, s) = (call.watched.run ((runCalls calls (p, s)).1,
      rowsSeen calls (p, s), (runCalls calls (p, s)).2)).2.1 :=
  rowsSeen_append calls [call] p s

theorem Steps.seen {outcome : Except Error StepOutcome} {handler : RowHandler β} {s : β}
    {calls : List (Call β)} (steps : Steps (runCalls calls (p, s)).1 outcome q rows)
    (takes : ∀ row t, (handler row t).1 = .ok ()) :
    (runCalls (calls ++ [.parseMore handler]) (p, s)).1 = q ∧
      rowsSeen (calls ++ [.parseMore handler]) (p, s) = rowsSeen calls (p, s) ++ rows := by
  have watching : ∀ row t, (watched handler row t).1 = .ok () := fun row t => takes row t.2
  rw [runCalls_concat, rowsSeen_concat, Call.run, Call.watched, Call.run, steps.run takes,
    steps.run watching, feed_watched takes]
  exact ⟨rfl, rfl⟩

theorem Finishes.seen {outcome : Except Error Unit} {handler : RowHandler β} {s : β}
    {calls : List (Call β)} (finishes : Finishes (runCalls calls (p, s)).1 outcome q rows)
    (takes : ∀ row t, (handler row t).1 = .ok ()) :
    (runCalls (calls ++ [.finish handler]) (p, s)).1 = q ∧
      rowsSeen (calls ++ [.finish handler]) (p, s) = rowsSeen calls (p, s) ++ rows := by
  have watching : ∀ row t, (watched handler row t).1 = .ok () := fun row t => takes row t.2
  rw [runCalls_concat, rowsSeen_concat, Call.run, Call.watched, Call.run, finishes.run takes,
    finishes.run watching, feed_watched takes]
  exact ⟨rfl, rfl⟩

theorem call_of_over (ended : p.IsOver) (call : Call β) (s : β) : call.run (p, s) = (p, s) := by
  rcases status : p.status with _ | _ | _ | description
  · exact absurd status ended.1
  · exact absurd status ended.2
  · exact ((call_over call s).1 status).2
  · exact ((call_over call s).2 description status).2

theorem runCalls_over (ended : p.IsOver) (calls : List (Call β)) (s : β) :
    runCalls calls (p, s) = (p, s) := by
  induction calls with
  | nil => rfl
  | cons call rest ih => simp [call_of_over ended, ih]

theorem orderly_of_open {calls : List (Call β)} {p : Parser} {s : β}
    (open_ : ¬ (runCalls calls (p, s)).1.IsOver) : Orderly calls (p, s) := by
  induction calls generalizing p s with
  | nil => trivial
  | cons call rest ih =>
    refine ⟨?_, ih open_⟩
    rintro handler rfl
    refine fun ready => open_ ?_
    have ended := p.finish_isOver handler s
    rw [runCalls_cons]
    rcases finished : Call.run (.finish handler) (p, s) with ⟨q, t⟩
    rw [show (p.finish handler s).2 = (q, t) from finished] at ended
    rw [runCalls_over ended]
    exact ended

theorem orderly_concat {calls : List (Call β)} {call : Call β} {state : Parser × β} :
    Orderly (calls ++ [call]) state ↔
      Orderly calls state ∧ call.Allowed (runCalls calls state).1 := by
  induction calls generalizing state with
  | nil => exact and_comm
  | cons first rest ih =>
    rw [List.cons_append, Orderly, Orderly, ih, and_assoc]
    rfl

theorem rowsSeen_numbers (source : Source) (options : Options) (calls : List (Call β)) (s : β) :
    (rowsSeen calls (initial source options, s)).map Row.number =
      List.range' 1 (rowsSeen calls (initial source options, s)).length := by
  let Numbered (p : Parser) (seen : List Row) : Prop :=
    p.rows = seen.length ∧ seen.map Row.number = List.range' 1 seen.length
  have invariant : ∀ handler : RowHandler β,
      Invariant (watched handler) fun p state => Numbered p state.1 := fun handler => {
    begins := fun _ _ _ numbered => numbered
    moves := fun _ _ _ _ move numbered => ⟨move.continues.rows.trans numbered.1, numbered.2⟩
    delivers := by
      rintro p ⟨seen, t⟩ layout completed ⟨rows, numbers⟩
      refine ⟨?_, ?_⟩
      · show p.rows + 1 = (seen ++ [p.completedRow]).length
        rw [rows, List.length_append, List.length_singleton]
      · show (seen ++ [p.completedRow]).map Row.number = List.range' 1 (seen ++ [_]).length
        rw [List.map_append, numbers, List.length_append, List.length_singleton,
          List.range'_concat, Nat.one_mul, Nat.add_comm 1, ← rows]
        rfl
    ends := fun _ _ _ _ numbered => numbered }
  exact (noted_hold invariant calls (initial source options) [] s (layout_initial _ _)
    ⟨rfl, rfl⟩).2

/-! ## The records handed over -/

theorem Place.finish_front {excused : Prop} {left : List Record} {handler : RowHandler β}
    (place : Place excused p p.source.offset left) (open_ : p.status = .ready ∨ p.status = .exhausted)
    (takes : ∀ row t, (handler row t).1 = .ok ()) (seen : List Row) (s : β) :
    ∃ rows left', left = rows.map Row.cells ++ left' ∧
      (p.finish (watched handler) (seen, s)).2.2.1 = seen ++ rows ∧
      (p.finish handler s).2.1.source = p.source := by
  obtain ⟨rows, left', ending, split, -, -, -, run⟩ := place.finish open_
  obtain ⟨q, noted, -⟩ := run _ (watched handler) (seen, s)
  refine ⟨rows, left', split, ?_, (p.finish_keeps handler s open_).1⟩
  rw [noted, feed_watched takes]

/-- Whatever calls are made of a parse, also after it was finished early, the rows that it has handed
over are the first records of the bytes that it has read. -/
theorem rowsSeen_front (content : Bytes) (reads : List ReadEvent) (seeks : List (Option String))
    (options : Options) (single : SingleMark content) (calls : List (Call β))
    (takes : ∀ call ∈ calls, ∀ row t, (call.handler row t).1 = .ok ()) (s : β) :
    (rowsSeen calls (initial (Source.ofBytes content reads seeks) options, s)).map Row.cells <+:
      reference options.delimiter (content.take
        (runCalls calls (initial (Source.ofBytes content reads seeks) options, s)).1.source.offset) := by
  induction calls using List.reverseRecOn with
  | nil => exact List.nil_prefix
  | append_singleton calls call ih =>
    have before := ih fun call member => takes call (List.mem_append_left _ member)
    have takes' := takes call (List.mem_append_right _ List.mem_cons_self)
    by_cases ended : (runCalls calls (initial (Source.ofBytes content reads seeks) options, s)).1.IsOver
    · -- A parse that is over hands nothing more over.
      rw [runCalls_concat, rowsSeen_concat, call_of_over ended, call_of_over ended]
      exact before
    · have orderly := orderly_of_open ended
      cases call with
      | parseMore handler =>
        have orderly' : Orderly (calls ++ [.parseMore handler])
            (initial (Source.ofBytes content reads seeks) options, s) :=
          orderly_concat.mpr ⟨orderly, fun _ other => (by cases other)⟩
        obtain ⟨left, split, -⟩ := calls_stand reads seeks options single orderly'
        exact ⟨left, split.symm⟩
      | finish handler =>
        obtain ⟨left, split, place⟩ := calls_stand reads seeks options single orderly
        have open_ := Decidable.or_iff_not_not_and_not.mpr ended
        have accepts : ∀ row t, (handler row t).1 = .ok () := takes'
        obtain ⟨rows, left', split', noted, source⟩ := place.finish_front open_ accepts
          (rowsSeen calls (initial (Source.ofBytes content reads seeks) options, s))
          (runCalls calls (initial (Source.ofBytes content reads seeks) options, s)).2
        rw [runCalls_concat, rowsSeen_concat, Call.run, Call.watched, Call.run, source, noted,
          List.map_append, split, split', ← List.append_assoc]
        exact List.prefix_append _ _

end Parser

end Tabular.Csv
