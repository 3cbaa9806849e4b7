import Tabular.Proofs.Csv.RowMemory

/-!
Calls of a parser. A call begins a generation, moves and delivers in turn, and ends by setting a
status. What each of these keeps, of the parser and of what its handler has made of the rows so
far, is kept by every call, however it ends.
-/
namespace Tabular.Csv.Parser

/-! ## Completed records -/

/-- A record is in hand and complete: no cell is open behind its last one. -/
structure Completed (p : Parser) : Prop where
  closed : p.fieldOpen = false
  fieldStart : p.fieldStart = p.buffer.live.size

theorem advance_completed {p q : Parser} {atEnd : Bool}
    (advanced : p.advance atEnd = (.ok .row, q)) : Completed q := by
  unfold advance at advanced
  rcases opened : p.openCell atEnd with ⟨begun, r⟩
  rw [opened] at advanced
  cases begun with
  | false => cases advanced
  | true =>
    dsimp only at advanced
    rcases tokenized : r.tokenize with ⟨result, t⟩
    rw [tokenized] at advanced
    cases result with
    | inputUsed => cases advanced
    | noRoom => cases advanced
    | dataEnd => cases advanced
    | field endsRecord =>
      dsimp only at advanced
      unfold endCell at advanced
      split at advanced
      · cases advanced
      · rename_i ended
        split at ended
        · cases ended
        · simp only [Prod.mk.injEq, true_and] at ended advanced
          rw [← advanced.2, ← ended]
          exact ⟨rfl, rfl⟩

theorem seekRow_completed {p q : Parser} (sought : p.seekRow = (.ok .row, q)) : Completed q := by
  fun_induction seekRow p with
  | case1 p waits ended => cases sought
  | case2 p waits ended error r filled => cases sought
  | case3 p waits ended r filled ih => exact ih sought
  | case4 p waits error r advanced => cases sought
  | case5 p waits r advanced =>
    cases sought
    exact advance_completed advanced
  | case6 p waits r advanced => cases sought
  | case7 p waits r advanced ih => exact ih sought
  | case8 p waits r advanced ih => exact ih sought

theorem flushRow_completed {p q : Parser} (found : p.flushRow = (.ok .row, q)) : Completed q := by
  fun_induction flushRow p with
  | case1 p error r advanced => cases found
  | case2 p r advanced =>
    cases found
    exact advance_completed advanced
  | case3 p r advanced => cases found
  | case4 p r advanced ih => exact ih found
  | case5 p r advanced ih => exact ih found

theorem layout_afterRow {p : Parser} (layout : Layout p) (completed : Completed p) :
    Layout p.afterRow :=
  { layout with
    tiles := completed.fieldStart.symm
    columns_le := Nat.zero_le _ }

/-! ## The parts of a call -/

variable {β : Type}

def statusAfter (status : ParserStatus) : Except Error StepOutcome → ParserStatus
  | .error error => .failed error.message
  | .ok .noMoreInput => .exhausted
  | .ok .row => status

theorem parseMore_ready (handler : RowHandler β) {p q : Parser} {s t : β}
    {outcome : Except Error StepOutcome} (ready : p.status = .ready)
    (stepped : p.beginGeneration.step handler s = (outcome, q, t)) :
    p.parseMore handler s = (outcome, { q with status := statusAfter q.status outcome }, t) := by
  unfold parseMore
  rw [ready]
  dsimp only
  rw [stepped]
  cases outcome with
  | error error => rfl
  | ok outcome => cases outcome <;> rfl

theorem parseMore_over (handler : RowHandler β) {p : Parser} (s : β) (past : p.status ≠ .ready) :
    (p.parseMore handler s).2 = (p, s) := by
  unfold parseMore
  cases status : p.status with
  | ready => exact absurd status past
  | exhausted => rfl
  | finished => rfl
  | failed description => rfl

/-- The parser as it begins to take what was read so far for the whole input. -/
def atFinish (p : Parser) : Parser :=
  if p.markChecked then { p.beginGeneration with atEnd := true }
  else { p.beginGeneration with atEnd := true }.skipMark

def statusFinished : Except Error Unit → ParserStatus
  | .error error => .failed error.message
  | .ok () => .finished

theorem finish_open (handler : RowHandler β) {p q : Parser} {s t : β}
    {outcome : Except Error Unit} (open_ : p.status = .ready ∨ p.status = .exhausted)
    (flushed : p.atFinish.flush handler s = (outcome, q, t)) :
    p.finish handler s = (outcome, { q with status := statusFinished outcome }, t) := by
  unfold finish
  rcases open_ with status | status <;> rw [status] <;> dsimp only
  all_goals
    split
    · rename_i error r u found
      cases flushed.symm.trans found
      rfl
    · rename_i r u found
      cases flushed.symm.trans found
      rfl

theorem finish_over (handler : RowHandler β) {p : Parser} (s : β) (ready : p.status ≠ .ready)
    (exhausted : p.status ≠ .exhausted) : (p.finish handler s).2 = (p, s) := by
  unfold finish
  cases status : p.status with
  | ready => exact absurd status ready
  | exhausted => exact absurd status exhausted
  | finished => rfl
  | failed description => rfl

/-! ## What every call keeps -/

/-- What is kept of a parser and of the state of its handler through every part of a call. -/
structure Invariant (handler : RowHandler β) (Holds : Parser → β → Prop) : Prop where
  begins : ∀ p s, Layout p → Holds p s → Holds p.beginGeneration s
  moves : ∀ p q s, Layout p → Move p q → Holds p s → Holds q s
  delivers : ∀ p s, Layout p → Completed p → Holds p s →
    Holds p.afterRow (handler p.completedRow s).2
  ends : ∀ p s atEnd status, Holds p s → Holds { p with atEnd, status } s

variable {handler : RowHandler β} {Holds : Parser → β → Prop}

theorem Invariant.after_moves (inv : Invariant handler Holds) {p q : Parser} {s : β}
    (moves : Moves p q) (layout : Layout p) (holds : Holds p s) : Layout q ∧ Holds q s := by
  refine moves.keep (fun q => Layout q ∧ Holds q s) ?_ ⟨layout, holds⟩
  intro p q move before
  exact ⟨move.layout before.1, inv.moves p q s before.1 move before.2⟩

theorem Invariant.after_row (inv : Invariant handler Holds) {p : Parser} {s t : β}
    {answer : Except Error Unit} (handled : handler p.completedRow s = (answer, t))
    (layout : Layout p) (completed : Completed p) (holds : Holds p s) :
    Layout p.afterRow ∧ Holds p.afterRow t := by
  have delivered := inv.delivers p s layout completed holds
  rw [handled] at delivered
  exact ⟨layout_afterRow layout completed, delivered⟩

theorem Invariant.step (inv : Invariant handler Holds) {p q : Parser} {s t : β}
    {outcome : Except Error StepOutcome} (stepped : p.step handler s = (outcome, q, t))
    (layout : Layout p) (holds : Holds p s) : Layout q ∧ Holds q t := by
  have marking := inv.after_moves p.checkMark_moves layout holds
  unfold Parser.step at stepped
  rcases marked : p.checkMark with ⟨found, r⟩
  rw [marked] at marking stepped
  cases found with
  | error error =>
    cases stepped
    exact marking
  | ok _ =>
    have seeking := inv.after_moves r.seekRow_moves marking.1 marking.2
    dsimp only at stepped
    rcases sought : r.seekRow with ⟨found, u⟩
    rw [sought] at seeking stepped
    cases found with
    | error error =>
      cases stepped
      exact seeking
    | ok found =>
      cases found with
      | noMoreInput =>
        cases stepped
        exact seeking
      | row =>
        dsimp only at stepped
        rcases handled : handler u.completedRow s with ⟨answer, v⟩
        rw [handled] at stepped
        have delivered := inv.after_row handled seeking.1 (seekRow_completed sought) seeking.2
        cases answer <;> cases stepped <;> exact delivered

theorem Invariant.flush (inv : Invariant handler Holds) (p : Parser) (s : β) (layout : Layout p)
    (holds : Holds p s) :
    Layout (p.flush handler s).2.1 ∧ Holds (p.flush handler s).2.1 (p.flush handler s).2.2 := by
  fun_induction Parser.flush handler p s with
  | case1 p s error q found => exact inv.after_moves (moves_of_flushRow found) layout holds
  | case2 p s q found => exact inv.after_moves (moves_of_flushRow found) layout holds
  | case3 p s q found error t handled =>
    have seeking := inv.after_moves (moves_of_flushRow found) layout holds
    exact inv.after_row handled seeking.1 (flushRow_completed found) seeking.2
  | case4 p s q found t handled ih =>
    have seeking := inv.after_moves (moves_of_flushRow found) layout holds
    have delivered := inv.after_row handled seeking.1 (flushRow_completed found) seeking.2
    exact ih delivered.1 delivered.2

theorem Invariant.parseMore (inv : Invariant handler Holds) (p : Parser) (s : β)
    (layout : Layout p) (holds : Holds p s) :
    Layout (p.parseMore handler s).2.1 ∧
      Holds (p.parseMore handler s).2.1 (p.parseMore handler s).2.2 := by
  by_cases ready : p.status = .ready
  · rcases stepped : p.beginGeneration.step handler s with ⟨outcome, q, t⟩
    have kept := inv.step stepped (layout_beginGeneration layout) (inv.begins p s layout holds)
    rw [parseMore_ready handler ready stepped]
    exact ⟨{ kept.1 with }, inv.ends q t q.atEnd _ kept.2⟩
  · rw [parseMore_over handler s ready]
    exact ⟨layout, holds⟩

theorem Invariant.atFinish (inv : Invariant handler Holds) {p : Parser} {s : β}
    (layout : Layout p) (holds : Holds p s) : Layout p.atFinish ∧ Holds p.atFinish s := by
  have begun : Layout { p.beginGeneration with atEnd := true } ∧
      Holds { p.beginGeneration with atEnd := true } s :=
    ⟨{ layout_beginGeneration layout with },
      inv.ends _ _ true p.beginGeneration.status (inv.begins p s layout holds)⟩
  unfold Parser.atFinish
  split
  · exact begun
  · exact inv.after_moves (Move.skipMark _).moves begun.1 begun.2

theorem Invariant.finish (inv : Invariant handler Holds) (p : Parser) (s : β)
    (layout : Layout p) (holds : Holds p s) :
    Layout (p.finish handler s).2.1 ∧
      Holds (p.finish handler s).2.1 (p.finish handler s).2.2 := by
  by_cases open_ : p.status = .ready ∨ p.status = .exhausted
  · have begun := inv.atFinish layout holds
    have kept := inv.flush p.atFinish s begun.1 begun.2
    rcases flushed : p.atFinish.flush handler s with ⟨outcome, q, t⟩
    rw [flushed] at kept
    rw [finish_open handler open_ flushed]
    exact ⟨{ kept.1 with }, inv.ends q t q.atEnd _ kept.2⟩
  · rw [finish_over handler s (fun ready => open_ (Or.inl ready))
      (fun exhausted => open_ (Or.inr exhausted))]
    exact ⟨layout, holds⟩

end Tabular.Csv.Parser
