import Tabular.Proofs.Csv.Delivery
import Tabular.Proofs.Csv.Generations

/-!
What a step and finishing come to over any source, of which nothing is asked here. A step that finds
no more input leaves none waiting, and finishing from there completes one record at most, the one in
hand.
-/
namespace Tabular.Csv.Parser

/-! ## No more input -/

theorem classify_ne_dataEnd (state : TokenState) (rest : Bytes) (full : Bool) :
    Tokenizer.classify state rest full ≠ .dataEnd := by
  unfold Tokenizer.classify
  split
  · exact FieldResult.noConfusion
  · exact FieldResult.noConfusion
  · split <;> exact FieldResult.noConfusion

theorem readField_dataEnd {t : Tokenizer} {input : Bytes} {capacity : Nat} {out : Array UInt8}
    (ended : (t.readField input capacity out).result = .dataEnd) :
    (t.readField input capacity out).rest = [] := by
  unfold Tokenizer.readField at ended ⊢
  dsimp only at ended ⊢
  split at ended
  · split at ended <;> rename_i empty between
    · rw [if_pos empty, if_pos between]
    · cases ended
  · split at ended
    · exact absurd ended (classify_ne_dataEnd _ _ _)
    · cases ended

theorem advance_dataEnd {p q : Parser} {atEnd : Bool}
    (advanced : p.advance atEnd = (.ok .dataEnd, q)) : q.window.pending = [] := by
  unfold advance at advanced
  rcases opened : p.openCell atEnd with ⟨begun, r⟩
  rw [opened] at advanced
  cases begun with
  | false => cases advanced
  | true =>
    rcases read : r.tokenizer.readField r.window.pending r.buffer.capacity r.buffer.live with
      ⟨result, tokenizer, rest, out⟩
    have used := @readField_dataEnd r.tokenizer r.window.pending r.buffer.capacity r.buffer.live
    rw [read] at used
    dsimp only at advanced
    rw [tokenize_eq read] at advanced
    cases result with
    | inputUsed => cases advanced
    | noRoom => cases advanced
    | dataEnd =>
      cases advanced
      exact used rfl
    | field endsRecord =>
      dsimp only at advanced
      split at advanced <;> cases endsRecord <;> cases advanced

theorem seekRow_used {p q : Parser} (sought : p.seekRow = (.ok .noMoreInput, q)) :
    q.window.pending = [] := by
  fun_induction seekRow p with
  | case1 p waits ended =>
    cases sought
    exact List.isEmpty_iff.mp waits
  | case2 p waits ended error r filled => cases sought
  | case3 p waits ended r filled ih => exact ih sought
  | case4 p waits error r advanced => cases sought
  | case5 p waits r advanced => cases sought
  | case6 p waits r advanced =>
    cases sought
    exact advance_dataEnd advanced
  | case7 p waits r advanced ih => exact ih sought
  | case8 p waits r advanced ih => exact ih sought

inductive Taken (p : Parser) : Prop where
  | row (q : Parser) (layout : Layout q) (completed : Completed q)
      (continues : Continues p.beginGeneration q)
      (step : ∀ (β : Type) (handler : RowHandler β) (s : β),
        p.parseMore handler s = answered q.afterRow (handler q.completedRow s))
  | noMore (q : Parser) (layout : Layout q) (used : q.window.pending = [])
      (step : ∀ (β : Type) (handler : RowHandler β) (s : β),
        p.parseMore handler s = (.ok .noMoreInput, { q with status := .exhausted }, s))
  | failed (error : Error) (q : Parser) (layout : Layout q)
      (step : ∀ (β : Type) (handler : RowHandler β) (s : β), p.parseMore handler s =
        (.error error, { q with status := .failed error.message }, s))

theorem look_ok {p q : Parser} {outcome : StepOutcome} (found : p.look = (.ok outcome, q)) :
    ∃ m : Parser, m.seekRow = (.ok outcome, q) := by
  unfold look at found
  split at found
  · cases found
  · exact ⟨_, found⟩

theorem parseMore_takes {p : Parser} (ready : p.status = .ready) (layout : Layout p) : Taken p := by
  have moves := p.beginGeneration.look_moves
  have steps := fun {β : Type} (handler : RowHandler β) => parseMore_look handler ready
  have laid := moves.keep Layout (fun _ _ move => move.layout) (layout_beginGeneration layout)
  rcases found : p.beginGeneration.look with ⟨error | _ | _, q⟩ <;> rw [found] at moves laid
  · refine .failed error q laid fun β handler s => ?_
    rw [steps, found]
    rfl
  · obtain ⟨m, sought⟩ := look_ok found
    refine .row q laid (seekRow_completed sought) moves.continues fun β handler s => ?_
    rw [steps, found]
    rfl
  · obtain ⟨m, sought⟩ := look_ok found
    refine .noMore q laid (seekRow_used sought) fun β handler s => ?_
    rw [steps, found]
    rfl

/-! ## The record in hand -/

theorem openCell_used {p : Parser} (used : p.window.pending = []) :
    ∃ q, p.openCell true = (true, q) ∧ q.window.pending = [] ∧ q.tokenizer = p.tokenizer := by
  have left : p.skipBlankLines.window.pending = [] := by
    unfold skipBlankLines Window.skipLineBreaks
    dsimp only
    split
    · rw [used]
      rfl
    · exact used
  unfold openCell
  split
  · exact ⟨p, rfl, used, rfl⟩
  · dsimp only
    rw [Bool.not_true, Bool.and_false, if_neg Bool.false_ne_true]
    exact ⟨_, rfl, left, rfl⟩

/-- What the end of the input makes of a parse: there is nothing more, or the record in hand is
complete, or it has too many cells. -/
inductive AtLast (p : Parser) : Except Error Progress × Parser → Prop where
  | dataEnd (q : Parser) : AtLast p (.ok .dataEnd, q)
  | row (q : Parser) (used : q.window.pending = []) (ended : q.tokenizer.state = .recordEnd)
      (within : p.tokenizer.state.isBetweenRecords = false) : AtLast p (.ok .row, q)
  | failed (error : Error) (q : Parser) (within : p.tokenizer.state.isBetweenRecords = false) :
      AtLast p (.error error, q)

theorem advance_used {p : Parser} (used : p.window.pending = []) : AtLast p (p.advance true) := by
  obtain ⟨q, opened, used', same⟩ := openCell_used used
  have empty : q.tokenizer.withoutMark [] = [] := by
    unfold Tokenizer.withoutMark
    split <;> rfl
  unfold advance
  rw [opened]
  dsimp only
  rw [tokenize_eq rfl, Tokenizer.readField, used', empty, same]
  cases between : p.tokenizer.state.isBetweenRecords with
  | true => exact .dataEnd _
  | false =>
    dsimp only [List.isEmpty_nil]
    rw [if_pos rfl, if_neg Bool.false_ne_true]
    dsimp only
    unfold endCell
    split <;> rename_i ended <;> split at ended <;> cases ended
    · exact .failed _ _ between
    · exact .row _ rfl rfl between

inductive LastRow (p : Parser) : Except Error StepOutcome × Parser → Prop where
  | noMore (q : Parser) : LastRow p (.ok .noMoreInput, q)
  | row (q : Parser) (used : q.window.pending = []) (ended : q.tokenizer.state = .recordEnd) :
      LastRow p (.ok .row, q)
  | failed (error : Error) (q : Parser) : LastRow p (.error error, q)

theorem flushRow_used {p : Parser} (used : p.window.pending = []) : LastRow p p.flushRow := by
  have last := advance_used used
  unfold flushRow
  split <;> rename_i advanced <;> rw [advanced] at last
  · exact .failed _ _
  · cases last with
    | row q used ended => exact .row _ used ended
  · exact .noMore _
  · cases last
  · cases last

theorem flushRow_over {p : Parser} (used : p.window.pending = [])
    (between : p.tokenizer.state.isBetweenRecords = true) :
    ∃ q, p.flushRow = (.ok .noMoreInput, q) := by
  have last := advance_used used
  rcases advanced : p.advance true with ⟨outcome, q⟩
  rw [advanced] at last
  unfold flushRow
  cases last with
  | dataEnd q =>
    split <;> rename_i found <;> rw [advanced] at found <;> cases found
    exact ⟨q, rfl⟩
  | row q used ended within =>
    rw [between] at within
    cases within
  | failed error q within =>
    rw [between] at within
    cases within

/-- What flushing comes to when the input is used up and the handler takes what it is given: there
is one row at most, and no failure behind it. -/
inductive FlushedLast {β : Type} (handler : RowHandler β) (p : Parser) (s : β) :
    Except Error Unit × Parser × β → Prop where
  | none (q : Parser) : FlushedLast handler p s (.ok (), q, s)
  | row (q r : Parser) (found : p.flushRow = (.ok .row, q)) (onward : Moves q.afterRow r) :
      FlushedLast handler p s (.ok (), r, (handler q.completedRow s).2)
  | failed (error : Error) (q : Parser) : FlushedLast handler p s (.error error, q, s)

theorem flush_used {β : Type} {handler : RowHandler β}
    (takes : ∀ row s, (handler row s).1 = .ok ()) {p : Parser} (used : p.window.pending = [])
    (s : β) : FlushedLast handler p s (p.flush handler s) := by
  have last := flushRow_used used
  rcases found : p.flushRow with ⟨outcome, q⟩
  rw [found] at last
  cases last with
  | noMore q =>
    rw [flush, found]
    exact .none q
  | failed error q =>
    rw [flush, found]
    exact .failed error q
  | row q used ended =>
    have taken : handler q.completedRow s = (.ok (), (handler q.completedRow s).2) :=
      Prod.ext (takes _ _) rfl
    have between : q.afterRow.tokenizer.state.isBetweenRecords = true := by
      show q.tokenizer.state.isBetweenRecords = true
      rw [ended]
      rfl
    obtain ⟨r, nothing⟩ := flushRow_over (p := q.afterRow) used between
    rw [flush, found]
    dsimp only
    rw [taken]
    dsimp only
    rw [flush, nothing]
    exact .row q r found (moves_of_flushRow nothing)

inductive FinishedLast {β : Type} (handler : RowHandler β) (s : β) :
    Except Error Unit × Parser × β → Prop where
  | none (q : Parser) (layout : Layout q) : FinishedLast handler s (.ok (), q, s)
  | row (q : Parser) (row : Row) (layout : Layout q) (keeps : Keeps q row)
      (current : row.generation = q.generation) :
      FinishedLast handler s (.ok (), q, (handler row s).2)
  | failed (error : Error) (q : Parser) (layout : Layout q) :
      FinishedLast handler s (.error error, q, s)

theorem pending_skipMark {p : Parser} (used : p.window.pending = []) :
    p.skipMark.window.pending = [] := by
  unfold skipMark Window.skipMark
  dsimp only
  split
  · split
    · exact (congrArg (List.drop 3) used).trans rfl
    · exact used
  · exact used

theorem pending_atFinish {p : Parser} (used : p.window.pending = []) :
    p.atFinish.window.pending = [] := by
  unfold atFinish
  split
  · exact used
  · exact pending_skipMark used

theorem finish_used {β : Type} {handler : RowHandler β}
    (takes : ∀ row s, (handler row s).1 = .ok ()) {p : Parser} (layout : Layout p)
    (exhausted : p.status = .exhausted) (used : p.window.pending = []) (s : β) :
    FinishedLast handler s (p.finish handler s) := by
  have kept := invariant_generation handler 0
  have begun := (kept.atFinish (s := s) layout (Nat.zero_le _)).1
  have laid := (kept.finish p s layout (Nat.zero_le _)).1
  have flushed := flush_used takes (pending_atFinish used) s
  rcases result : p.atFinish.flush handler s with ⟨outcome, q, t⟩
  rw [finish_open handler (Or.inr exhausted) result] at laid ⊢
  rw [result] at flushed
  cases flushed with
  | none => exact .none _ laid
  | failed error => exact .failed error _ laid
  | row r _ found onward =>
    have layout' := (moves_of_flushRow found).keep Layout (fun _ _ move => move.layout) begun
    -- The row is not touched any more on the way from its delivery to the end.
    have delivered : Keeps r.afterRow r.completedRow := { keeps_completedRow layout' with }
    exact .row _ r.completedRow laid { delivered.of_continues onward.continues with }
      onward.continues.generation.symm

end Tabular.Csv.Parser
