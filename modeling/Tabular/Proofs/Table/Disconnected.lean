import Tabular.Proofs.Table.Lookahead

/-!
Tables that were disconnected. A disconnect lets go of the parser and with it of the source, and
nothing that can be called on a table makes a parser where there is none. So no row comes back.
-/
namespace Tabular.Table.State

def noParser : Error := .internal "no parser session"

/-- Nothing is left of a parse. Either nothing was scanned since the disconnect, or that failed. -/
structure Gone (t : State) : Prop where
  parser : t.session.parser = none
  caches : t.caches = {}
  status : t.session.status = .exhausted ∨ t.session.status = .failed noParser.message

variable {t : State}

theorem disconnect_gone (t : State) : t.disconnect.Gone := ⟨rfl, rfl, Or.inl rfl⟩

theorem Gone.filter (gone : t.Gone) : t.filter.1 = .error noParser ∧ t.filter.2.Gone := by
  have rewound : ∀ cached, t.session.rewind cached = (.error noParser, { t.session with
      parser := none, status := .failed noParser.message, finished := false, nextId := 1 }) := by
    intro cached
    unfold Session.rewind Session.restart
    rw [gone.parser]
    rfl
  unfold State.filter
  dsimp only
  rw [rewound]
  exact ⟨rfl, rfl, congrArg (fun caches : Caches => { caches with data := {} }) gone.caches,
    Or.inr rfl⟩

theorem Gone.pull (gone : t.Gone) :
    (t.pull.1 = .ok () ∨ t.pull.1 = .error (.parse noParser.message)) ∧ t.pull.2.Gone := by
  unfold State.pull Session.pull Session.advance
  rcases gone.status with exhausted | failed
  · have finished : t.session.finish t.caches =
        (.ok (), { t.session with finished := true }, t.caches) := by
      unfold Session.finish
      split
      · rename_i finished
        rw [← finished]
      · split
        · rfl
        · rename_i some
          rw [gone.parser] at some
          cases some
    rw [exhausted]
    dsimp only
    rw [finished]
    exact ⟨Or.inl rfl, gone.parser, gone.caches, Or.inl exhausted⟩
  · rw [failed]
    exact ⟨Or.inr rfl, gone⟩

theorem Gone.next_eq (gone : t.Gone) : t.next = t.pull := by
  rcases t with ⟨name, params, columns, session, caches, cursorOpen, file⟩
  obtain rfl : caches = {} := gone.caches
  rfl

/-! ## Whatever is called -/

theorem Gone.run_operation (gone : t.Gone) (op : Operation) : (op.run t).Gone := by
  cases op with
  | openCursor =>
    show t.openCursor.2.Gone
    unfold State.openCursor
    split <;> exact ⟨gone.parser, gone.caches, gone.status⟩
  | closeCursor => exact ⟨gone.parser, gone.caches, gone.status⟩
  | filter => exact gone.filter.2
  | next =>
    show t.next.2.Gone
    rw [gone.next_eq]
    exact gone.pull.2
  | column | rowid | atEnd => exact gone
  | rewrite content =>
    exact ⟨Option.map_eq_none_iff.mpr gone.parser, gone.caches, gone.status⟩
  | disconnect => exact disconnect_gone t

theorem Gone.run (gone : t.Gone) (ops : List Operation) : (t.run ops).Gone := by
  induction ops generalizing t with
  | nil => exact gone
  | cons op rest ih => exact ih (gone.run_operation op)

/-! ## What is seen -/

theorem Gone.atEnd (gone : t.Gone) : t.atEnd = true := by
  have done : t.session.isDone = true := by
    rcases gone.status with exhausted | failed
    · exact isDone_of_ne (by rw [exhausted]; exact fun same => by cases same)
    · exact isDone_of_ne (by rw [failed]; exact fun same => by cases same)
  rw [State.atEnd, gone.caches, done]
  rfl

theorem Gone.rowid (gone : t.Gone) : t.rowid = noRowid := by
  rw [State.rowid, gone.caches]
  rfl

theorem Gone.column (gone : t.Gone) (context : Host.ColumnContext) (index : Int) :
    t.column context index = .ok context.setNull := by
  unfold State.column
  rw [gone.caches]
  split <;> rfl

/-- Whatever a table was in the middle of, once it is disconnected it has no row at any time, nor
the source to read one from. Every scan fails, and moving on fails or comes to no row. -/
theorem disconnected_shows_nothing (t : State) (ops : List Operation) :
    let s := t.disconnect.run ops
    s.session.parser = none ∧
      s.atEnd = true ∧
      s.rowid = noRowid ∧
      (∀ context index, s.column context index = .ok context.setNull) ∧
      s.filter.1 = .error noParser ∧
      (s.next.1 = .ok () ∨ s.next.1 = .error (.parse noParser.message)) ∧
      s.next.2.caches.data.isEmpty = true := by
  intro s
  have gone : s.Gone := (disconnect_gone t).run ops
  have moved : (s.run [.next]).Gone := gone.run [.next]
  refine ⟨gone.parser, gone.atEnd, gone.rowid, gone.column, gone.filter.1, ?_, ?_⟩
  · rw [gone.next_eq]
    exact gone.pull.1
  · show (s.run [.next]).caches.data.isEmpty = true
    rw [moved.caches]
    rfl

end Tabular.Table.State
