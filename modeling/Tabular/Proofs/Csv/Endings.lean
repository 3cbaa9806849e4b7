import Tabular.Proofs.Csv.Delivery
import Tabular.Proofs.Csv.Generations

/-!
What a call comes to over any source. Where a parse stands between two calls is told by the records
that it has not handed over. A call hands over the first of them, or none, and when it fails, it is
known why.
-/
namespace Tabular.Csv

open Grammar

/-- How a record that is over a limit is reported, by its number. -/
inductive Options.Refuses (o : Options) (number : Nat) : Error → Prop where
  | columns : Refuses o number (.tooManyColumns number o.maxColumns)
  | size : Refuses o number (.rowTooLarge number o.bufferSize)

namespace Parser

variable {p : Parser} {n : Nat} {β : Type}

/-! ## Rows that are taken -/

theorem feed_watched {handler : RowHandler β} (takes : ∀ row t, (handler row t).1 = .ok ())
    (rows seen : List Row) (s : β) :
    feed (watched handler) rows (seen, s) = (.ok (), seen ++ rows, (feed handler rows s).2) := by
  induction rows generalizing seen s with
  | nil => rw [feed, feed, List.append_nil]
  | cons row rest ih =>
    have handled : handler row s = (.ok (), (handler row s).2) := Prod.ext (takes row s) rfl
    rw [feed, feed, watched, handled]
    dsimp only
    rw [ih, List.append_assoc, List.singleton_append]

theorem feed_takes {handler : RowHandler β} (takes : ∀ row t, (handler row t).1 = .ok ())
    (rows : List Row) (s : β) : (feed handler rows s).1 = .ok () := by
  induction rows generalizing s with
  | nil => rfl
  | cons row rest ih =>
    have handled : handler row s = (.ok (), (handler row s).2) := Prod.ext (takes row s) rfl
    rw [feed, handled]
    exact ih _

/-! ## What is seen of the source -/

theorem Within.of_checkMark (within : Within p.checkMark.2 n) : Within p n := by
  unfold checkMark at within
  split at within
  · exact within
  · obtain ⟨q, fillings, stops⟩ := p.fillMark_fillings
    apply fillings.turns.within
    rcases result : p.fillMark with ⟨outcome, r⟩
    rw [result] at stops within
    cases stops with
    | enough enough => exact { within with }
    | unread error r open_ short filled => exact (unread_of_fill filled).2 n within

theorem Within.of_look (within : Within p.look.2 n) : Within p n := by
  apply Within.of_checkMark
  unfold look at within
  rcases marked : p.checkMark with ⟨error | _, m⟩ <;> rw [marked] at within
  · exact within
  · exact within.of_seekRow

@[simp] theorem handOver_source (handler : RowHandler β) (s : β)
    (result : Except Error StepOutcome × Parser) :
    (handOver handler s result).2.1.source = result.2.source := by
  rcases result with ⟨error | _ | _, q⟩
  · rfl
  · dsimp only [handOver]
    rcases handler q.completedRow s with ⟨error | _, t⟩ <;> rfl
  · rfl

@[simp] theorem handOver_atEnd (handler : RowHandler β) (s : β)
    (result : Except Error StepOutcome × Parser) :
    (handOver handler s result).2.1.atEnd = result.2.atEnd := by
  rcases result with ⟨error | _ | _, q⟩
  · rfl
  · dsimp only [handOver]
    rcases handler q.completedRow s with ⟨error | _, t⟩ <;> rfl
  · rfl

theorem Within.of_handOver {handler : RowHandler β} {s : β}
    {result : Except Error StepOutcome × Parser}
    (within : Within (handOver handler s result).2.1 n) : Within result.2 n :=
  within.of_same (by simp) (by simp)

/-- Looking through the input already read asks nothing of the source. -/
@[simp] theorem flushRow_source (p : Parser) : p.flushRow.2.source = p.source := by
  fun_induction flushRow p with
  | case1 p error q advanced | case2 p q advanced | case3 p q advanced =>
    simpa [advanced] using p.advance_source true
  | case4 p q advanced ih | case5 p q advanced ih =>
    simpa [advanced, ih] using p.advance_source true

@[simp] theorem flushRow_atEnd (p : Parser) : p.flushRow.2.atEnd = p.atEnd := by
  fun_induction flushRow p with
  | case1 p error q advanced | case2 p q advanced | case3 p q advanced =>
    simpa [advanced] using p.advance_atEnd true
  | case4 p q advanced ih | case5 p q advanced ih =>
    simpa [advanced, ih] using p.advance_atEnd true

@[simp] theorem flush_source (handler : RowHandler β) (p : Parser) (s : β) :
    (p.flush handler s).2.1.source = p.source := by
  fun_induction Parser.flush handler p s with
  | case1 p s error q found | case2 p s q found | case3 p s q found error t handled =>
    simpa [found] using p.flushRow_source
  | case4 p s q found t handled ih => simpa [found, ih] using p.flushRow_source

@[simp] theorem flush_atEnd (handler : RowHandler β) (p : Parser) (s : β) :
    (p.flush handler s).2.1.atEnd = p.atEnd := by
  fun_induction Parser.flush handler p s with
  | case1 p s error q found | case2 p s q found | case3 p s q found error t handled =>
    simpa [found] using p.flushRow_atEnd
  | case4 p s q found t handled ih => simpa [found, ih] using p.flushRow_atEnd

theorem finish_keeps (handler : RowHandler β) (s : β)
    (open_ : p.status = .ready ∨ p.status = .exhausted) :
    (p.finish handler s).2.1.source = p.source ∧ (p.finish handler s).2.1.atEnd = true := by
  have begun : p.atFinish.source = p.source ∧ p.atFinish.atEnd = true := by
    unfold atFinish
    split <;> exact ⟨rfl, rfl⟩
  rw [finish_open handler open_ rfl]
  simpa using begun

theorem Within.of_run {call : Call β} {s : β} (within : Within (call.run (p, s)).1 n) :
    Within p n := by
  cases call with
  | parseMore handler =>
    by_cases ready : p.status = .ready
    · have looked : Within (p.parseMore handler s).2.1 n := within
      rw [parseMore_look handler ready] at looked
      exact { looked.of_handOver.of_look with }
    · rw [Call.run, parseMore_over handler s ready] at within
      exact within
  | finish handler =>
    by_cases open_ : p.status = .ready ∨ p.status = .exhausted
    · obtain ⟨source, ending⟩ := p.finish_keeps handler s open_
      have ended := within.ended ending
      have same : (p.finish handler s).2.1.source.offset = n := ended
      rw [source] at same
      exact ⟨Nat.le_of_eq same, fun _ => same⟩
    · rw [not_or] at open_
      rw [Call.run, finish_over handler s open_.1 open_.2] at within
      exact within

theorem Within.of_runCalls {calls : List (Call β)} {state : Parser × β}
    (within : Within (runCalls calls state).1 n) : Within state.1 n := by
  induction calls generalizing state with
  | nil => exact within
  | cons call rest ih => exact Within.of_run (ih within)

/-! ## Where a parse stands -/

/-- A parse that goes on. A read that is still to fail is an excuse for what it fails to hand
over. -/
structure Going (excused : Prop) (p : Parser) : Prop where
  bufferSize : p.buffer.capacity = p.options.bufferSize
  reads : ∀ detail, .failed detail ∈ p.source.reads → excused

/-- Where a parse of an input of `n` bytes stands between two calls, with the records `left` that it
has not handed over. -/
inductive Place (excused : Prop) (p : Parser) (n : Nat) (left : List Record) : Prop where
  | ready (status : p.status = .ready) (going : Going excused p) (text : Bytes)
      (awaits : Awaits p n text) (same : p.ahead text = left)
  | exhausted (status : p.status = .exhausted) (going : Going excused p)
      (rests : Coherent p ∨ Over p) (checked : p.markChecked = true) (used : p.textTo n = [])
      (same : p.ahead [] = left)
  | finished (status : p.status = .finished) (none : left = [])
  | failed (description : String) (status : p.status = .failed description)
      (cause : excused ∨ ∃ first rest, left = first :: rest ∧ ¬ p.options.Fits first)

variable {q : Parser} {excused : Prop}

theorem Going.of_continues (going : Going excused p) (continues : Continues p.beginGeneration q) :
    Going excused q where
  bufferSize := by
    rw [continues.bufferCapacity, continues.options]
    simpa using going.bufferSize
  reads detail scheduled := going.reads detail (continues.reads.mem scheduled)

theorem Going.refuses (going : Going excused p) {r : Record} {error : Error}
    (exceeds : p.beginGeneration.Exceeds r error) :
    p.options.Refuses (p.rows + 1) error ∧ ¬ p.options.Fits r := by
  have capacity : p.beginGeneration.buffer.capacity = p.options.bufferSize := by
    simpa using going.bufferSize
  constructor
  · cases exceeds with
    | columns wide => exact .columns
    | size large =>
      rw [capacity]
      exact .size
  · intro fits
    refine not_exceeds (p := p.beginGeneration) fits.1 ?_ exceeds
    simpa [going.bufferSize] using fits.2

/-! ## What a call comes to -/

def Call.outcome (call : Call β) (state : Parser × β) : Except Error Unit :=
  match call with
  | .parseMore handler => (state.1.parseMore handler state.2).1.map fun _ => ()
  | .finish handler => (state.1.finish handler state.2).1

/-- A parse is finished only when it has come to the end of its input, or failed. -/
def Call.Allowed (call : Call β) (p : Parser) : Prop :=
  ∀ handler, call = .finish handler → p.status ≠ .ready

inductive Cause (p : Parser) : Error → Prop where
  | again (description : String) (failed : p.status = .failed description) :
      Cause p (.parse description)
  | unread (detail : String) (scheduled : .failed detail ∈ p.source.reads) : Cause p (.io detail)
  | limit (error : Error) (refuses : p.options.Refuses (p.rows + 1) error) : Cause p error

/-- What a call comes to: it hands nothing over, or the first of the records that are left, or it
fails of itself. -/
inductive Called (excused : Prop) (call : Call β) (p : Parser) (s : β) (n : Nat)
    (left : List Record) : Prop where
  | silent (q : Parser) (place : Place excused q n left) (answer : call.outcome (p, s) = .ok ())
      (run : ∀ seen, call.watched.run (p, seen, s) = (q, seen, s))
  | row (q : Parser) (row : Row) (rest : List Record) (first : left = row.cells :: rest)
      (place : Place excused q n rest) (answer : call.outcome (p, s) = (call.handler row s).1)
      (run : ∀ seen, call.watched.run (p, seen, s) =
        (q, seen ++ [row], (call.handler row s).2))
  | failed (q : Parser) (error : Error) (cause : Cause p error) (place : Place excused q n left)
      (answer : call.outcome (p, s) = .error error)
      (run : ∀ seen, call.watched.run (p, seen, s) = (q, seen, s))

@[simp] theorem answered_watched (handler : RowHandler β) (q : Parser) (row : Row)
    (seen : List Row) (s : β) :
    (answered q (watched handler row (seen, s))).2 =
      ((answered q (handler row s)).2.1, seen ++ [row], (handler row s).2) := by
  unfold watched
  rcases handler row s with ⟨error | _, t⟩ <;> rfl

@[simp] theorem concluded_watched (handler : RowHandler β) (q r : Parser) (row : Row)
    (seen : List Row) (s : β) : (concluded q r (watched handler row (seen, s))).2 =
      ((concluded q r (handler row s)).2.1, seen ++ [row], (handler row s).2) := by
  unfold watched
  rcases handler row s with ⟨error | _, t⟩ <;> rfl

theorem parseMore_called {handler : RowHandler β} {s : β} {left : List Record}
    (refused : ∀ row t error, (handler row t).1 = .error error → excused)
    (status : p.status = .ready) (going : Going excused p) {text : Bytes} (awaits : Awaits p n text)
    (same : p.ahead text = left) (within : Within (p.parseMore handler s).2.1 n) :
    Called excused (.parseMore handler) p s n left := by
  have steps := fun {γ : Type} (handler : RowHandler γ) => parseMore_look handler status
  rw [steps] at within
  have looked := look_reads within.of_handOver awaits.beginGeneration
  rw [← ahead_beginGeneration awaits.layout] at same
  have continues := p.beginGeneration.look_moves.continues
  rcases found : p.beginGeneration.look with ⟨outcome, q⟩
  rw [found] at looked continues
  have answer : Call.outcome (.parseMore handler) (p, s) =
      (handOver handler s (outcome, q)).1.map fun _ => () := by
    rw [← found, ← steps]
    rfl
  have run : ∀ seen, Call.run (.parseMore (watched handler)) (p, seen, s) =
      (handOver (watched handler) (seen, s) (outcome, q)).2 := by
    intro seen
    rw [← found, ← steps]
    rfl
  cases looked with
  | row q whole within taken split first =>
    have checked := look_checked found
    have first := first (q.textTo n)
    rw [← split] at first
    refine .row (answered q.afterRow (handler q.completedRow s)).2.1 q.completedRow
      (records q.tokenizer.delimiter (q.textTo n)) (same.symm.trans first) ?_ (answer.trans ?_)
      fun seen => (run seen).trans (answered_watched handler _ _ seen s)
    · rcases handled : handler q.completedRow s with ⟨error | _, t⟩
      · exact .failed error.message rfl
          (Or.inl (refused q.completedRow s error (congrArg Prod.fst handled)))
      · exact .ready (continues.status.trans status) { going.of_continues continues with }
          (q.textTo n) (awaits_afterRow whole checked n) (whole.ahead_afterRow _)
    · show (answered q.afterRow (handler q.completedRow s)).1.map _ =
        (handler q.completedRow s).1
      rcases handler q.completedRow s with ⟨error | _, t⟩ <;> rfl
  | noMore q left used last =>
    have checked := look_checked found
    refine .silent { q with status := .exhausted } ?_ answer run
    refine .exhausted rfl { going.of_continues continues with } ?_ checked used (last.trans same)
    rcases left with coherent | past
    · exact Or.inl { coherent with }
    · exact Or.inr { past with }
  | failed error q first rest ahead exceeds =>
    obtain ⟨refuses, unfit⟩ := going.refuses exceeds
    have options : q.options = p.options := continues.options
    rw [← options] at unfit
    exact .failed { q with status := .failed error.message } error (.limit error refuses)
      (.failed error.message rfl (Or.inr ⟨first, rest, same.symm.trans ahead, unfit⟩)) answer run
  | unread detail q scheduled =>
    exact .failed { q with status := .failed (Error.io detail).message } (.io detail)
      (.unread detail scheduled)
      (.failed (Error.io detail).message rfl (Or.inl (going.reads detail scheduled))) answer run

theorem finish_called {handler : RowHandler β} {s : β} {left : List Record}
    (refused : ∀ row t error, (handler row t).1 = .error error → excused)
    (status : p.status = .exhausted) (rests : Coherent p ∨ Over p)
    (checked : p.markChecked = true) (used : p.textTo n = []) (same : p.ahead [] = left) :
    Called excused (.finish handler) p s n left := by
  have empty := (List.append_eq_nil_iff.mp used).1
  cases finish_concluding (Or.inr status) checked rests empty with
  | none q nothing finish =>
    exact .silent { q with status := .finished } (.finished rfl (same.symm.trans nothing))
      (congrArg Prod.fst (finish β handler s))
      fun seen => congrArg Prod.snd (finish _ (watched handler) (seen, s))
  | row q r whole continues only finish =>
    refine .row (concluded q.afterRow r (handler q.completedRow s)).2.1 q.completedRow []
      (same.symm.trans only) ?_ ((congrArg Prod.fst (finish β handler s)).trans ?_)
      fun seen => (congrArg Prod.snd (finish _ (watched handler) (seen, s))).trans
        (concluded_watched handler _ _ _ seen s)
    · rcases handled : handler q.completedRow s with ⟨error | _, t⟩
      · exact .failed error.message rfl
          (Or.inl (refused q.completedRow s error (congrArg Prod.fst handled)))
      · exact .finished rfl rfl
    · show (concluded q.afterRow r (handler q.completedRow s)).1 = (handler q.completedRow s).1
      rcases handler q.completedRow s with ⟨error | _, t⟩ <;> rfl
  | failed q first continues only wide finish =>
    have unfit : ¬ q.options.Fits first := by
      rw [continues.options]
      exact fun fits => absurd fits.1 (Nat.not_le_of_lt wide)
    refine .failed { q with status := .failed _ } _ (.limit _ .columns)
      (.failed _ rfl (Or.inr ⟨first, [], same.symm.trans only, unfit⟩))
      (congrArg Prod.fst (finish β handler s))
      fun seen => congrArg Prod.snd (finish _ (watched handler) (seen, s))

theorem call_over (call : Call β) (s : β) :
    (p.status = .finished → call.outcome (p, s) = .ok () ∧ call.run (p, s) = (p, s)) ∧
      ∀ description, p.status = .failed description →
        call.outcome (p, s) = .error (.parse description) ∧ call.run (p, s) = (p, s) := by
  constructor
  · intro status
    cases call with
    | parseMore handler => simp [Call.outcome, Call.run, parseMore, status, Except.map]
    | finish handler => simp [Call.outcome, Call.run, finish, status]
  · intro description status
    cases call with
    | parseMore handler => simp [Call.outcome, Call.run, parseMore, status, Except.map]
    | finish handler => simp [Call.outcome, Call.run, finish, status]

theorem call_reads {call : Call β} {s : β} {left : List Record}
    (refused : ∀ row t error, (call.handler row t).1 = .error error → excused)
    (allowed : call.Allowed p) (within : Within (call.run (p, s)).1 n)
    (place : Place excused p n left) : Called excused call p s n left := by
  cases place with
  | ready status going text awaits same =>
    cases call with
    | parseMore handler => exact parseMore_called refused status going awaits same within
    | finish handler => exact absurd status (allowed handler rfl)
  | exhausted status going rests checked used same =>
    cases call with
    | finish handler => exact finish_called refused status rests checked used same
    | parseMore handler =>
      have idle : ∀ (γ : Type) (handler : RowHandler γ) (s : γ),
          p.parseMore handler s = (.ok .noMoreInput, p, s) := by
        intro γ handler s
        rw [parseMore, status]
      exact .silent p (.exhausted status going rests checked used same)
        (congrArg (fun result => result.1.map fun _ => ()) (idle β handler s))
        fun seen => congrArg Prod.snd (idle _ (watched handler) (seen, s))
  | finished status none =>
    exact .silent p (.finished status none) ((call_over call s).1 status).1
      fun seen => ((call_over call.watched (seen, s)).1 status).2
  | failed description status cause =>
    exact .failed p (.parse description) (.again description status)
      (.failed description status cause) ((call_over call s).2 description status).1
      fun seen => ((call_over call.watched (seen, s)).2 description status).2

end Parser

end Tabular.Csv
