import Tabular.Proofs.Csv.HandedOver
import Tabular.Proofs.Csv.Passes
import Tabular.Proofs.Csv.UsedInput

/-!
Once no byte is left, one record more comes at most: the one in hand. Only finishing completes it,
and a parse that is finished hands nothing more over.
-/
namespace Tabular.Csv.Parser

variable {p q : Parser} {β : Type} {handler : RowHandler β}

/-- No byte is left: none waits, and none is to come or the parse takes it so. -/
structure OutOfInput (p : Parser) : Prop where
  used : p.window.pending = []
  ended : p.atEnd = true ∨ p.status = .exhausted

/-- What becomes of a parser after so many records, with no byte left: there is none left still,
without another record, or the parse is over, with one more at most. -/
inductive Outlasts (records : Nat) (q : Parser) : Prop where
  | waits (outOfInput : OutOfInput q) (rows : q.rows = records)
  | finished (isOver : q.IsOver) (rows : q.rows ≤ records + 1)

theorem outlasts_seekRow (used : p.window.pending = []) (ended : p.atEnd = true) (s : β) :
    Outlasts p.rows (handOver handler s p.seekRow).2.1 := by
  rw [seekRow_of_ended used ended]
  exact .waits ⟨used, Or.inl ended⟩ rfl

theorem outlasts_fillMark (used : p.window.pending = []) (ended : p.atEnd = true) (s : β) :
    Outlasts p.rows
      (handOver handler s (andThen p.fillMark fun _ q => q.skipMark.seekRow)).2.1 := by
  rw [fillMark_of_enough (Or.inl ended)]
  exact outlasts_seekRow (p := p.skipMark) (pending_skipMark used) ended s

theorem outlasts_flush (used : p.window.pending = []) (handler : RowHandler β) (s : β) :
    Outlasts p.rows (conclude (p.flush handler s)).2.1 := by
  have finished : ∀ (outcome : Except Error Unit) (q : Parser) (t : β), q.rows ≤ p.rows + 1 →
      Outlasts p.rows (conclude (outcome, q, t)).2.1 := by
    intro outcome q t rows
    refine .finished ?_ rows
    cases outcome <;> exact ⟨ParserStatus.noConfusion, ParserStatus.noConfusion⟩
  have last := flushRow_used used
  rcases found : p.flushRow with ⟨outcome, q⟩
  have rows : q.rows = p.rows := (moves_of_flushRow found).continues.rows
  rw [found] at last
  rw [Parser.flush, found]
  cases last with
  | noMore q => exact finished _ _ _ (Nat.le_succ_of_le (Nat.le_of_eq rows))
  | failed error q => exact finished _ _ _ (Nat.le_succ_of_le (Nat.le_of_eq rows))
  | row q used' ended =>
    have next : q.afterRow.rows = p.rows + 1 := congrArg (· + 1) rows
    dsimp only
    rcases handler q.completedRow s with ⟨error | _, t⟩
    · exact finished _ _ _ (Nat.le_of_eq next)
    · -- Behind the record that was in hand the tokenizer finds nothing to close.
      have between : q.afterRow.tokenizer.state.isBetweenRecords = true :=
        congrArg TokenState.isBetweenRecords ended
      obtain ⟨r, nothing⟩ := flushRow_over (p := q.afterRow) used' between
      have rows' : r.rows = q.afterRow.rows := (moves_of_flushRow nothing).continues.rows
      dsimp only
      rw [Parser.flush, nothing]
      exact finished _ _ _ (Nat.le_of_eq (rows'.trans next))

theorem outlasts_rest {c : Phase β} (used : c.parser.window.pending = [])
    (ended : c.parser.atEnd = true) (handler : RowHandler β) : Outlasts c.parser.rows (c.rest handler).2.1 := by
  cases c with
  | marking p s => exact outlasts_fillMark used ended s
  | seeking p s => exact outlasts_seekRow used ended s
  | flushing p s => exact outlasts_flush used handler s
  | returned result => exact .waits ⟨used, Or.inl ended⟩ rfl

/-! ## Calls -/

@[simp] theorem rows_atFinish (p : Parser) : p.atFinish.rows = p.rows := by
  unfold atFinish
  split <;> rfl

theorem outlasts_finish (used : p.window.pending = [])
    (ended : p.status = .ready ∨ p.status = .exhausted) (handler : RowHandler β) (s : β) :
    Outlasts p.rows (p.finish handler s).2.1 := by
  have outlasts := outlasts_flush (pending_atFinish used) handler s
  rw [rows_atFinish] at outlasts
  rw [finish_open handler ended rfl]
  exact outlasts

theorem outlasts_parseMore (used : p.window.pending = []) (ended : p.atEnd = true)
    (ready : p.status = .ready) (handler : RowHandler β) (s : β) :
    Outlasts p.rows (p.parseMore handler s).2.1 := by
  rw [parseMore_look handler ready, look_eq]
  split
  · exact outlasts_seekRow (p := p.beginGeneration) used ended s
  · exact outlasts_fillMark (p := p.beginGeneration) used ended s

theorem outlasts_run (outOfInput : OutOfInput p) (call : Call β) (s : β) :
    Outlasts p.rows (call.run (p, s)).1 := by
  obtain ⟨used, ended⟩ := outOfInput
  by_cases isOver : p.IsOver
  · rw [call_of_over isOver]
    exact .finished isOver (Nat.le_succ _)
  · have open_ := Decidable.or_iff_not_not_and_not.mpr isOver
    cases call with
    | finish handler => exact outlasts_finish used open_ handler s
    | parseMore handler =>
      rcases open_ with ready | exhausted
      · have ended := ended.resolve_right (by rw [ready]; exact ParserStatus.noConfusion)
        exact outlasts_parseMore used ended ready handler s
      · have idle := parseMore_over handler s (by rw [exhausted]; exact ParserStatus.noConfusion)
        have same : (Call.run (.parseMore handler) (p, s)).1 = p := congrArg Prod.fst idle
        rw [same]
        exact .waits ⟨used, ended⟩ rfl

theorem rows_runCalls_le (outOfInput : OutOfInput p) (calls : List (Call β)) (s : β) :
    (runCalls calls (p, s)).1.rows ≤ p.rows + 1 := by
  induction calls generalizing p s with
  | nil => exact Nat.le_succ _
  | cons call rest ih =>
    rw [runCalls_cons]
    cases outlasts_run outOfInput call s with
    | waits outOfInput' rows => exact rows ▸ ih outOfInput' _
    | finished isOver rows =>
      rw [runCalls_over (p := (call.run (p, s)).1) isOver]
      exact rows

theorem Outlasts.rows_runCalls_le {records : Nat} (outlasts : Outlasts records p)
    (calls : List (Call β)) (s : β) : (runCalls calls (p, s)).1.rows ≤ records + 1 := by
  cases outlasts with
  | waits outOfInput rows => exact rows ▸ Parser.rows_runCalls_le outOfInput calls s
  | finished isOver rows =>
    rw [runCalls_over isOver]
    exact rows

theorem outlasts_of_noMoreInput {call : Call β} {s t : β} (ready : p.status = .ready)
    (result : call.result p s = (.ok .noMoreInput, q, t)) : Outlasts q.rows q := by
  cases call with
  | finish handler =>
    have isOver := p.finish_isOver handler s
    have same : (p.finish handler s).2.1 = q := congrArg (·.2.1) result
    rw [same] at isOver
    exact .finished isOver (Nat.le_succ _)
  | parseMore handler =>
    have result : p.parseMore handler s = (.ok .noMoreInput, q, t) := result
    rw [parseMore_look handler ready] at result
    rcases found : p.beginGeneration.look with ⟨error | _ | _, r⟩ <;> rw [found] at result
    · cases result
    · rcases handled : handler r.completedRow s with ⟨error | _, u⟩ <;>
        rw [handOver, handled] at result <;> cases result
    · obtain ⟨m, sought⟩ := look_ok found
      have used : r.window.pending = [] := seekRow_used sought
      cases result
      exact .waits ⟨used, Or.inr rfl⟩ rfl

end Tabular.Csv.Parser
