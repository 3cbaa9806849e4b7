import Tabular.Csv.Consumption

/-!
The steps of a parse. `parseMore` completes one record, `finish` takes what was read so far for
the whole input and completes whatever that leaves, and `drain` runs a parse to its end.
-/
namespace Tabular.Csv.Parser

def fillMark (p : Parser) : Except Error Unit × Parser :=
  if _ended : p.atEnd = true then (.ok (), p)
  else if p.window.filled < byteOrderMark.length then
    match _filled : p.fill with
    | (.error error, q) => (.error error, q)
    | (.ok (), q) => q.fillMark
  else (.ok (), p)
termination_by p.work
decreasing_by
  have less := p.work_fill_lt (by simpa using _ended)
  rw [_filled] at less
  exact less rfl

/-- Advance, reading as needed, until a record is complete or the input has ended. A record
that only the end of the input would complete stays in hand. -/
def seekRow (p : Parser) : Except Error StepOutcome × Parser :=
  if _waits : p.window.pending.isEmpty = true then
    if _ended : p.atEnd = true then (.ok .noMoreInput, p)
    else
      match _filled : p.fill with
      | (.error error, q) => (.error error, q)
      | (.ok (), q) => q.seekRow
  else
    match _advanced : p.advance p.atEnd with
    | (.error error, q) => (.error error, q)
    | (.ok .row, q) => (.ok .row, q)
    | (.ok .dataEnd, q) => (.ok .noMoreInput, q)
    | (.ok .field, q) => q.seekRow
    | (.ok .needInput, q) => q.seekRow
termination_by p.work
decreasing_by
  · have less := p.work_fill_lt (by simpa using _ended)
    rw [_filled] at less
    exact less rfl
  all_goals
    have less := p.work_advance_lt _ (Or.inl fun none => _waits (by simp [none])) _
      (by rw [_advanced]) (by simp)
    rw [_advanced] at less
    exact less

/-- Advance through the input already read until a record is complete or nothing is left. The
end of that input completes a record. -/
def flushRow (p : Parser) : Except Error StepOutcome × Parser :=
  match _advanced : p.advance true with
  | (.error error, q) => (.error error, q)
  | (.ok .row, q) => (.ok .row, q)
  | (.ok .dataEnd, q) => (.ok .noMoreInput, q)
  | (.ok .field, q) => q.flushRow
  | (.ok .needInput, q) => q.flushRow
termination_by p.bufferedWork
decreasing_by
  all_goals
    have less := p.bufferedWork_advance_lt true (Or.inr rfl) _ (by rw [_advanced]) (by simp)
    rw [_advanced] at less
    exact less

def completedRow (p : Parser) : Row :=
  { number := p.rows + 1, generation := p.generation, spans := p.spans, text := p.buffer.live }

def afterRow (p : Parser) : Parser :=
  { p with rows := p.rows + 1, spans := #[], rowStart := p.buffer.live.size }

@[simp] theorem afterRow_tokenizer (p : Parser) : p.afterRow.tokenizer = p.tokenizer := rfl

@[simp] theorem afterRow_fieldOpen (p : Parser) : p.afterRow.fieldOpen = p.fieldOpen := rfl

@[simp] theorem afterRow_source (p : Parser) : p.afterRow.source = p.source := rfl

@[simp] theorem afterRow_atEnd (p : Parser) : p.afterRow.atEnd = p.atEnd := rfl

@[simp] theorem afterRow_spans (p : Parser) : p.afterRow.spans = #[] := rfl

def checkMark (p : Parser) : Except Error Unit × Parser :=
  if p.markChecked then (.ok (), p)
  else
    match p.fillMark with
    | (.error error, p) => (.error error, p)
    | (.ok (), p) => (.ok (), p.skipMark)

/-- Deliver the next record, if there is one. It counts as delivered even if it is refused. -/
def step {β : Type} (handler : RowHandler β) (p : Parser) (s : β) :
    Except Error StepOutcome × Parser × β :=
  match p.checkMark with
  | (.error error, p) => (.error error, p, s)
  | (.ok (), p) =>
    match p.seekRow with
    | (.error error, p) => (.error error, p, s)
    | (.ok .noMoreInput, p) => (.ok .noMoreInput, p, s)
    | (.ok .row, p) =>
      match handler p.completedRow s with
      | (.error error, s) => (.error error, p.afterRow, s)
      | (.ok (), s) => (.ok .row, p.afterRow, s)

theorem bufferedWork_flushRow_lt (p : Parser) (found : p.flushRow.1 = .ok .row) :
    p.flushRow.2.bufferedWork < p.bufferedWork := by
  fun_induction flushRow p with
  | case1 p error q advanced => simp at found
  | case2 p q advanced =>
    have less := p.bufferedWork_advance_lt true (Or.inr rfl) _ (by rw [advanced]) (by simp)
    rw [advanced] at less
    exact less
  | case3 p q advanced => simp at found
  | case4 p q advanced ih =>
    have less := p.bufferedWork_advance_lt true (Or.inr rfl) _ (by rw [advanced]) (by simp)
    rw [advanced] at less
    exact Nat.lt_trans (ih found) less
  | case5 p q advanced ih =>
    have less := p.bufferedWork_advance_lt true (Or.inr rfl) _ (by rw [advanced]) (by simp)
    rw [advanced] at less
    exact Nat.lt_trans (ih found) less

def flush {β : Type} (handler : RowHandler β) (p : Parser) (s : β) :
    Except Error Unit × Parser × β :=
  match _found : p.flushRow with
  | (.error error, q) => (.error error, q, s)
  | (.ok .noMoreInput, q) => (.ok (), q, s)
  | (.ok .row, q) =>
    match handler q.completedRow s with
    | (.error error, s) => (.error error, q.afterRow, s)
    | (.ok (), s) => q.afterRow.flush handler s
termination_by p.bufferedWork
decreasing_by
  have less := p.bufferedWork_flushRow_lt (by rw [_found])
  rw [_found] at less
  exact less

/-- Read on until one record is complete and delivered, or the input has ended. Spans of
earlier steps are void afterwards, and an error is repeated by every later step. -/
def parseMore {β : Type} (handler : RowHandler β) (p : Parser) (s : β) :
    Except Error StepOutcome × Parser × β :=
  match p.status with
  | .failed description => (.error (.parse description), p, s)
  | .finished | .exhausted => (.ok .noMoreInput, p, s)
  | .ready =>
    match p.beginGeneration.step handler s with
    | (.error error, p, s) => (.error error, { p with status := .failed error.message }, s)
    | (.ok .noMoreInput, p, s) => (.ok .noMoreInput, { p with status := .exhausted }, s)
    | (.ok .row, p, s) => (.ok .row, p, s)

/-- Deliver what is left when the input read so far is all there is. The source is not asked
again, and a second call does nothing. -/
def finish {β : Type} (handler : RowHandler β) (p : Parser) (s : β) :
    Except Error Unit × Parser × β :=
  match p.status with
  | .finished => (.ok (), p, s)
  | .failed description => (.error (.parse description), p, s)
  | .ready | .exhausted =>
    let p := { p.beginGeneration with atEnd := true }
    let p := if p.markChecked then p else p.skipMark
    match p.flush handler s with
    | (.error error, p, s) => (.error error, { p with status := .failed error.message }, s)
    | (.ok (), p, s) => (.ok (), { p with status := .finished }, s)

theorem work_fillMark_le (p : Parser) (done : p.fillMark.1 = .ok ()) :
    p.fillMark.2.work ≤ p.work := by
  fun_induction fillMark p with
  | case1 p ended => exact Nat.le_refl _
  | case2 p ended short error q filled => simp at done
  | case3 p ended short q filled ih =>
    have less := p.work_fill_lt (by simpa using ended)
    rw [filled] at less
    exact Nat.le_trans (ih done) (Nat.le_of_lt (less rfl))
  | case4 p ended full => exact Nat.le_refl _

theorem work_checkMark_le (p : Parser) (done : p.checkMark.1 = .ok ()) :
    p.checkMark.2.work ≤ p.work := by
  have filled := p.work_fillMark_le
  unfold checkMark at done ⊢
  split
  · exact Nat.le_refl _
  · rename_i unchecked
    rw [if_neg unchecked] at done
    split <;> rename_i result <;> rw [result] at filled done
    · simp at done
    · exact Nat.le_trans (work_skipMark_le _) (filled rfl)

theorem work_seekRow_lt (p : Parser) (found : p.seekRow.1 = .ok .row) :
    p.seekRow.2.work < p.work := by
  fun_induction seekRow p with
  | case1 p waits ended => simp at found
  | case2 p waits ended error q filled => simp at found
  | case3 p waits ended q filled ih =>
    have less := p.work_fill_lt (by simpa using ended)
    rw [filled] at less
    exact Nat.lt_trans (ih found) (less rfl)
  | case4 p waits error q advanced => simp at found
  | case5 p waits q advanced =>
    have less := p.work_advance_lt _ (Or.inl fun none => waits (by simp [none])) _
      (by rw [advanced]) (by simp)
    rw [advanced] at less
    exact less
  | case6 p waits q advanced => simp at found
  | case7 p waits q advanced ih =>
    have less := p.work_advance_lt _ (Or.inl fun none => waits (by simp [none])) _
      (by rw [advanced]) (by simp)
    rw [advanced] at less
    exact Nat.lt_trans (ih found) less
  | case8 p waits q advanced ih =>
    have less := p.work_advance_lt _ (Or.inl fun none => waits (by simp [none])) _
      (by rw [advanced]) (by simp)
    rw [advanced] at less
    exact Nat.lt_trans (ih found) less

theorem work_parseMore_lt {β : Type} (handler : RowHandler β) (p : Parser) (s : β)
    (found : (p.parseMore handler s).1 = .ok .row) :
    (p.parseMore handler s).2.1.work < p.work := by
  have marked := p.beginGeneration.work_checkMark_le
  unfold parseMore at found ⊢
  cases status : p.status with
  | ready =>
    simp only [status] at found ⊢
    unfold step at found ⊢
    cases checked : p.beginGeneration.checkMark with
    | mk outcome q =>
      rw [checked] at marked found
      cases outcome with
      | error error => simp at found
      | ok _ =>
        have less := q.work_seekRow_lt
        dsimp only at found ⊢
        cases sought : q.seekRow with
        | mk result r =>
          rw [sought] at less found
          cases result with
          | error error => simp at found
          | ok outcome =>
            cases outcome with
            | noMoreInput => simp at found
            | row =>
              have below : r.work < p.work := Nat.lt_of_lt_of_le (less rfl) (marked rfl)
              dsimp only at found ⊢
              cases handled : handler r.completedRow s with
              | mk answer s =>
                rw [handled] at found
                cases answer with
                | error error => simp at found
                | ok _ => exact below
  | exhausted => simp [status] at found
  | finished => simp [status] at found
  | failed description => simp [status] at found

def drain {β : Type} (handler : RowHandler β) (p : Parser) (s : β) :
    Except Error Unit × Parser × β :=
  match _stepped : p.parseMore handler s with
  | (.error error, q, t) => (.error error, q, t)
  | (.ok .noMoreInput, q, t) => q.finish handler t
  | (.ok .row, q, t) => q.drain handler t
termination_by p.work
decreasing_by
  have less := p.work_parseMore_lt handler s (by rw [_stepped])
  rw [_stepped] at less
  exact less

end Tabular.Csv.Parser
