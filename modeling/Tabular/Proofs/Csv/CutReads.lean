import Tabular.Proofs.Csv.Delivery
import Tabular.Proofs.Csv.Lockstep

/-!
Reads that fail. A parse goes by its reads one after another, so that of two parses of the same
bytes with the same reads up to a failure, the one that meets it has handed over the front of what
the other hands over.
-/
namespace Tabular

/-- The second reads are the first ones up to a failure. Whatever follows from there may differ. -/
inductive ReadEvent.OutlastedBy : List ReadEvent → List ReadEvent → Prop where
  | refl (events : List ReadEvent) : OutlastedBy events events
  | failed (detail : String) (later other : List ReadEvent) :
      OutlastedBy (.failed detail :: later) other
  | next (event : ReadEvent) {later other : List ReadEvent} (onward : OutlastedBy later other) :
      OutlastedBy (event :: later) (event :: other)

open ReadEvent (OutlastedBy)

namespace Source

theorem readBy_reads_irrelevant (s : Source) (count : Nat) (events reads : List ReadEvent) :
    { s with reads }.readBy count events = s.readBy count events := by
  induction events with
  | nil => rfl
  | cons event later ih =>
    cases event with
    | atMost limit => rfl
    | interrupted => exact ih
    | failed detail => rfl

theorem readBy_outlasted (s : Source) (count : Nat) {events events' : List ReadEvent}
    (outlasted : OutlastedBy events events') :
    (∃ detail t, s.readBy count events = (.error (.io detail), t)) ∨
      ∃ found t reads, s.readBy count events = (found, t) ∧ OutlastedBy t.reads reads ∧
        s.readBy count events' = (found, { t with reads }) := by
  induction outlasted with
  | refl events => exact Or.inr ⟨_, _, _, rfl, .refl _, rfl⟩
  | failed detail later other => exact Or.inl ⟨detail, _, rfl⟩
  | @next event later other onward ih =>
    cases event with
    | atMost limit => exact Or.inr ⟨_, _, other, rfl, onward, rfl⟩
    | interrupted => exact ih
    | failed detail => exact Or.inl ⟨detail, _, rfl⟩

end Source

namespace Csv.Parser

variable {α β : Type}

def withReads (p : Parser) (reads : List ReadEvent) : Parser :=
  { p with source := { p.source with reads } }

@[simp] theorem withReads_window (p : Parser) (reads : List ReadEvent) :
    (p.withReads reads).window = p.window := rfl

@[simp] theorem withReads_fieldOpen (p : Parser) (reads : List ReadEvent) :
    (p.withReads reads).fieldOpen = p.fieldOpen := rfl

@[simp] theorem withReads_markChecked (p : Parser) (reads : List ReadEvent) :
    (p.withReads reads).markChecked = p.markChecked := rfl

@[simp] theorem withReads_atEnd (p : Parser) (reads : List ReadEvent) :
    (p.withReads reads).atEnd = p.atEnd := rfl

@[simp] theorem withReads_status (p : Parser) (reads : List ReadEvent) :
    (p.withReads reads).status = p.status := rfl

@[simp] theorem completedRow_withReads (p : Parser) (reads : List ReadEvent) :
    (p.withReads reads).completedRow = p.completedRow := rfl

/-! ## Moves that do not read -/

@[simp] theorem openCell_withReads (p : Parser) (atEnd : Bool) (reads : List ReadEvent) :
    (p.withReads reads).openCell atEnd =
      ((p.openCell atEnd).1, (p.openCell atEnd).2.withReads reads) := by
  have skipped : (p.withReads reads).skipBlankLines = p.skipBlankLines.withReads reads := rfl
  unfold openCell
  rw [skipped]
  generalize p.skipBlankLines = q
  by_cases opened : p.fieldOpen = true
  · simp [opened]
  · rw [if_neg opened, withReads_fieldOpen, if_neg opened]
    unfold withReads
    dsimp only
    split <;> rfl

@[simp] theorem endCell_withReads (p : Parser) (reads : List ReadEvent) :
    (p.withReads reads).endCell = (p.endCell.1, p.endCell.2.withReads reads) := by
  unfold endCell withReads
  dsimp only
  split <;> rfl

@[simp] theorem tokenize_withReads (p : Parser) (reads : List ReadEvent) :
    (p.withReads reads).tokenize = (p.tokenize.1, p.tokenize.2.withReads reads) := rfl

@[simp] theorem advance_withReads (p : Parser) (atEnd : Bool) (reads : List ReadEvent) :
    (p.withReads reads).advance atEnd =
      ((p.advance atEnd).1, (p.advance atEnd).2.withReads reads) := by
  unfold advance
  rw [openCell_withReads]
  rcases p.openCell atEnd with ⟨_ | _, q⟩
  · rfl
  · dsimp only
    rw [tokenize_withReads]
    rcases q.tokenize with ⟨_ | _ | _ | _, r⟩ <;> try rfl
    dsimp only
    rw [endCell_withReads]
    rcases r.endCell with ⟨error | _, t⟩ <;> rfl

@[simp] theorem flushRow_withReads (p : Parser) (reads : List ReadEvent) :
    (p.withReads reads).flushRow = (p.flushRow.1, p.flushRow.2.withReads reads) := by
  rw [flushRow_eq (p.withReads reads), advance_withReads]
  fun_induction flushRow p with
  | case1 p error q advanced =>
    rw [advanced]
    rfl
  | case2 p q advanced =>
    rw [advanced]
    rfl
  | case3 p q advanced =>
    rw [advanced]
    rfl
  | case4 p q advanced ih =>
    rw [advanced, ← ih, ← advance_withReads, ← flushRow_eq]
    rfl
  | case5 p q advanced ih =>
    rw [advanced, ← ih, ← advance_withReads, ← flushRow_eq]
    rfl

@[simp] theorem atFinish_withReads (p : Parser) (reads : List ReadEvent) :
    (p.withReads reads).atFinish = p.atFinish.withReads reads := by
  unfold atFinish
  rw [withReads_markChecked]
  split <;> rfl

/-! ## Moves that read -/

/-- Two parses have come to the same, the reads of the second outlasting those of the first, or a
read of the first one has failed. -/
inductive Cut : Except Error α × Parser → Except Error α × Parser → Prop where
  | along (found : Except Error α) (q : Parser) {reads : List ReadEvent}
      (outlasted : OutlastedBy q.source.reads reads) : Cut (found, q) (found, q.withReads reads)
  | unread (detail : String) (q : Parser) (other : Except Error α × Parser) :
      Cut (.error (.io detail), q) other

theorem fill_cut (p : Parser) {reads : List ReadEvent}
    (outlasted : OutlastedBy p.source.reads reads) : Cut p.fill (p.withReads reads).fill := by
  have asked := p.source.readBy_reads_irrelevant (p.window.recycled.request p.options.readChunk)
    reads reads
  unfold fill Window.refill Source.read withReads
  dsimp only
  rw [asked]
  rcases p.source.readBy_outlasted (p.window.recycled.request p.options.readChunk) outlasted with
    ⟨detail, t, failed⟩ | ⟨found, t, later, read, outlasted, read'⟩
  · rw [failed]
    exact .unread detail _ _
  · rw [read, read']
    cases found with
    | error error =>
      exact .along (.error error) { p with window := p.window.recycled, source := t } outlasted
    | ok bytes => exact .along (.ok ()) { p with window := _, source := t, atEnd := _ } outlasted

theorem Cut.andThen {first second : Except Error α × Parser}
    {go : α → Parser → Except Error β × Parser} (cut : Cut first second)
    (onward : ∀ {a q reads}, first = (.ok a, q) → OutlastedBy q.source.reads reads →
      Cut (go a q) (go a (q.withReads reads))) : Cut (andThen first go) (andThen second go) := by
  cases cut with
  | along found q outlasted =>
    cases found with
    | error error => exact .along (.error error) q outlasted
    | ok a => exact onward rfl outlasted
  | unread detail q other => exact .unread detail q _

theorem fillMark_eq (p : Parser) :
    p.fillMark = if p.atEnd = true then (.ok (), p)
      else if p.window.filled < byteOrderMark.length then andThen p.fill fun _ q => q.fillMark
      else (.ok (), p) := by
  rw [fillMark]
  split
  · rfl
  · split
    · split <;> rename_i filled <;> rw [filled] <;> rfl
    · rfl

theorem fillMark_cut (p : Parser) {reads : List ReadEvent}
    (outlasted : OutlastedBy p.source.reads reads) :
    Cut p.fillMark (p.withReads reads).fillMark := by
  rw [fillMark_eq, fillMark_eq (p.withReads reads), withReads_atEnd, withReads_window]
  by_cases ended : p.atEnd = true
  · rw [if_pos ended, if_pos ended]
    exact .along (.ok ()) p outlasted
  · rw [if_neg ended, if_neg ended]
    split
    · refine (p.fill_cut outlasted).andThen ?_
      intro _ q later filled outlasted
      have less := p.work_fill_lt (by simpa using ended)
      rw [filled] at less
      have less := less rfl
      exact fillMark_cut q outlasted
    · exact .along (.ok ()) p outlasted
termination_by p.work

theorem checkMark_cut (p : Parser) {reads : List ReadEvent}
    (outlasted : OutlastedBy p.source.reads reads) :
    Cut p.checkMark (p.withReads reads).checkMark := by
  have marking : ∀ p : Parser, p.checkMark = if p.markChecked = true then (.ok (), p)
      else andThen p.fillMark fun _ q => (.ok (), q.skipMark) := by
    intro p
    unfold checkMark
    split
    · rfl
    · rcases p.fillMark with ⟨error | _, q⟩ <;> rfl
  rw [marking, marking (p.withReads reads), withReads_markChecked]
  split
  · exact .along (.ok ()) p outlasted
  · refine (p.fillMark_cut outlasted).andThen ?_
    intro _ q later filled outlasted
    exact .along (.ok ()) q.skipMark outlasted

theorem seekRow_cut (p : Parser) {reads : List ReadEvent}
    (outlasted : OutlastedBy p.source.reads reads) : Cut p.seekRow (p.withReads reads).seekRow := by
  by_cases waits : p.window.pending = []
  · have waits' : (p.withReads reads).window.pending = [] := waits
    cases ended : p.atEnd with
    | true =>
      rw [seekRow_of_ended waits ended, seekRow_of_ended waits' ended]
      exact .along _ p outlasted
    | false =>
      have filling := p.fill_cut outlasted
      have less := p.work_fill_lt ended
      rcases filled : p.fill with ⟨outcome, q⟩
      rcases filled' : (p.withReads reads).fill with ⟨outcome', q'⟩
      rw [filled] at less
      rw [filled, filled'] at filling
      cases filling with
      | along found q outlasted =>
        cases outcome with
        | error error =>
          rw [seekRow_of_unread waits ended filled, seekRow_of_unread waits' ended filled']
          exact .along _ q outlasted
        | ok _ =>
          have less := less rfl
          rw [← seekRow_of_fill waits ended filled, ← seekRow_of_fill waits' ended filled']
          exact seekRow_cut q outlasted
      | unread detail q other =>
        rw [seekRow_of_unread waits ended filled]
        exact .unread detail q _
  · have waits' : (p.withReads reads).window.pending ≠ [] := waits
    have advanced' := p.advance_withReads p.atEnd reads
    have less := p.work_advance_lt p.atEnd (Or.inl waits)
    have kept := p.advance_source p.atEnd
    rw [seekRow_of_waits waits, seekRow_of_waits waits', withReads_atEnd, advanced']
    generalize p.advance p.atEnd = found at kept less ⊢
    obtain ⟨outcome, q⟩ := found
    rw [← show q.source = p.source from kept] at outlasted
    rcases outcome with error | _ | _ | _ | _
    · exact .along _ q outlasted
    · have less := less _ rfl (by simp)
      exact seekRow_cut q outlasted
    · exact .along _ q outlasted
    · have less := less _ rfl (by simp)
      exact seekRow_cut q outlasted
    · exact .along _ q outlasted
termination_by p.work

theorem look_cut (p : Parser) {reads : List ReadEvent}
    (outlasted : OutlastedBy p.source.reads reads) : Cut p.look (p.withReads reads).look := by
  have looking : ∀ p : Parser, p.look = andThen p.checkMark fun _ q => q.seekRow := by
    intro p
    unfold look
    rcases p.checkMark with ⟨error | _, q⟩ <;> rfl
  rw [looking, looking (p.withReads reads)]
  exact (p.checkMark_cut outlasted).andThen fun _ outlasted => seekRow_cut _ outlasted

/-! ## What is handed over -/

theorem feed_cons {handler : RowHandler β} {row : Row} {rest : List Row} {s : β} {q : Parser}
    {ending : Except Error Unit} {onward : β → Except Error Unit × Parser × β}
    (later : ∀ t, ∃ r, onward t = ((feed handler rest t).1 *> ending, r, (feed handler rest t).2)) :
    ∃ r, (match handler row s with
      | (.error error, t) => (.error error, q, t)
      | (.ok (), t) => onward t) =
        ((feed handler (row :: rest) s).1 *> ending, r, (feed handler (row :: rest) s).2) := by
  rw [feed]
  rcases handler row s with ⟨error | _, t⟩
  · exact ⟨q, rfl⟩
  · exact later t

theorem exists_flush (p : Parser) :
    ∃ rows ending, ∀ (reads : List ReadEvent) (β : Type) (handler : RowHandler β) (s : β), ∃ q,
      (p.withReads reads).flush handler s =
        ((feed handler rows s).1 *> ending, q, (feed handler rows s).2) := by
  have flushing := p.flushRow_withReads
  have less := p.bufferedWork_flushRow_lt
  rcases found : p.flushRow with ⟨error | _ | _, q⟩ <;> rw [found] at flushing
  · refine ⟨[], .error error, fun reads β handler s => ⟨q.withReads reads, ?_⟩⟩
    rw [flush, flushing]
    rfl
  · rw [found] at less
    have less : q.afterRow.bufferedWork < p.bufferedWork := less rfl
    obtain ⟨rows, ending, brings⟩ := exists_flush q.afterRow
    refine ⟨q.completedRow :: rows, ending, fun reads β handler s => ?_⟩
    rw [flush, flushing]
    exact feed_cons (brings reads β handler)
  · refine ⟨[], .ok (), fun reads β handler s => ⟨q.withReads reads, ?_⟩⟩
    rw [flush, flushing]
    rfl
termination_by p.bufferedWork

theorem exists_finish {p : Parser} (open_ : p.status = .ready ∨ p.status = .exhausted) :
    ∃ rows ending, ∀ (reads : List ReadEvent) (β : Type) (handler : RowHandler β) (s : β), ∃ q,
      (p.withReads reads).finish handler s =
        ((feed handler rows s).1 *> ending, q, (feed handler rows s).2) := by
  obtain ⟨rows, ending, brings⟩ := exists_flush p.atFinish
  refine ⟨rows, ending, fun reads β handler s => ?_⟩
  obtain ⟨q, flushed⟩ := brings reads β handler s
  rw [← atFinish_withReads] at flushed
  exact ⟨_, finish_open handler open_ flushed⟩

section

variable {p q : Parser} {rows : List Row} {ending : Except Error Unit}

theorem handsOver_of_error (ready : p.status = .ready) {error : Error}
    (found : p.beginGeneration.look = (.error error, q)) : p.HandsOver [] (.error error) := by
  intro β handler s
  refine ⟨{ q with status := .failed error.message }, ?_⟩
  rw [drain, parseMore_look handler ready, found]
  rfl

theorem handsOver_of_noMore (ready : p.status = .ready)
    (found : p.beginGeneration.look = (.ok .noMoreInput, q))
    (brings : ∀ (β : Type) (handler : RowHandler β) (s : β), ∃ r,
      { q with status := .exhausted }.finish handler s =
        ((feed handler rows s).1 *> ending, r, (feed handler rows s).2)) :
    p.HandsOver rows ending := by
  intro β handler s
  rw [drain, parseMore_look handler ready, found]
  exact brings β handler s

theorem handsOver_of_row (ready : p.status = .ready)
    (found : p.beginGeneration.look = (.ok .row, q)) (brings : q.afterRow.HandsOver rows ending) :
    p.HandsOver (q.completedRow :: rows) ending := by
  intro β handler s
  rw [drain, parseMore_look handler ready, found, feed, handOver]
  rcases handler q.completedRow s with ⟨error | _, t⟩
  · exact ⟨_, rfl⟩
  · exact brings β handler t

theorem work_look_lt (ready : p.status = .ready)
    (found : p.beginGeneration.look = (.ok .row, q)) : q.afterRow.work < p.work := by
  have less := p.work_parseMore_lt (fun _ _ => (.ok (), ())) ()
  rw [parseMore_look _ ready, found] at less
  exact less rfl

end

/-- Every run hands over certain rows and comes to a certain end. -/
theorem exists_handsOver (p : Parser) (ready : p.status = .ready) :
    ∃ rows ending, p.HandsOver rows ending := by
  have status := p.beginGeneration.look_moves.continues.status
  rcases found : p.beginGeneration.look with ⟨error | _ | _, q⟩ <;> rw [found] at status
  · exact ⟨[], _, handsOver_of_error ready found⟩
  · have less := work_look_lt ready found
    obtain ⟨rows, ending, brings⟩ := exists_handsOver q.afterRow (status.trans ready)
    exact ⟨_, ending, handsOver_of_row ready found brings⟩
  · obtain ⟨rows, ending, brings⟩ :=
      exists_finish (p := { q with status := .exhausted }) (Or.inr rfl)
    exact ⟨rows, ending, handsOver_of_noMore ready found (brings q.source.reads)⟩
termination_by p.work

/-- Two runs with the same reads up to a failure hand over the same rows and come to the same end,
or the first one ends with the failure and has handed over the front of what the second does. -/
theorem handsOver_outlasted (p : Parser) (ready : p.status = .ready) {reads : List ReadEvent}
    (outlasted : OutlastedBy p.source.reads reads) :
    ∃ rows ending rows' ending', p.HandsOver rows ending ∧
      (p.withReads reads).HandsOver rows' ending' ∧
      (rows = rows' ∧ ending = ending' ∨
        rows <+: rows' ∧ ∃ detail, ending = .error (.io detail)) := by
  have status := p.beginGeneration.look_moves.continues.status
  have ready' : (p.withReads reads).status = .ready := ready
  have looking := p.beginGeneration.look_cut outlasted
  rcases found : p.beginGeneration.look with ⟨outcome, q⟩
  rcases found' : (p.withReads reads).beginGeneration.look with ⟨outcome', q'⟩
  rw [found] at status
  rw [found, show (p.beginGeneration.withReads reads).look = _ from found'] at looking
  cases looking with
  | unread detail q other =>
    obtain ⟨rows', ending', brings'⟩ := exists_handsOver (p.withReads reads) ready'
    exact ⟨[], _, rows', ending', handsOver_of_error ready found, brings',
      Or.inr ⟨List.nil_prefix, detail, rfl⟩⟩
  | along found_ q outlasted =>
    rcases outcome with error | _ | _
    · exact ⟨[], _, [], _, handsOver_of_error ready found, handsOver_of_error ready' found',
        Or.inl ⟨rfl, rfl⟩⟩
    · have less := work_look_lt ready found
      obtain ⟨rows, ending, rows', ending', brings, brings', same⟩ :=
        handsOver_outlasted q.afterRow (status.trans ready) outlasted
      refine ⟨_, ending, _, ending', handsOver_of_row ready found brings,
        handsOver_of_row ready' found' brings', ?_⟩
      rcases same with ⟨rfl, rfl⟩ | ⟨front, failed⟩
      · exact Or.inl ⟨rfl, rfl⟩
      · exact Or.inr ⟨(List.prefix_cons_inj _).mpr front, failed⟩
    · obtain ⟨rows, ending, brings⟩ :=
        exists_finish (p := { q with status := .exhausted }) (Or.inr rfl)
      exact ⟨rows, ending, rows, ending, handsOver_of_noMore ready found (brings q.source.reads),
        handsOver_of_noMore ready' found' (brings _), Or.inl ⟨rfl, rfl⟩⟩
termination_by p.work

end Csv.Parser

end Tabular
