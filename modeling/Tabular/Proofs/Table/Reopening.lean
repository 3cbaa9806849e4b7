import Tabular.Proofs.Table.Lookahead
import Tabular.Proofs.Table.Scan

/-!
What a cursor shows before it has looked for a row. It has no position of its own, and opening it
clears nothing. So it shows whatever row the cursors before it have left, and none only if the last
of them to look for a row has come to the end.
-/
namespace Tabular.Table

open Csv

namespace Operation

def Stays (op : Operation) : Prop := ¬ op.Looks ∧ op ≠ .disconnect

end Operation

namespace State

/-- A cursor has no row to show: no number and no value. -/
structure ShowsNothing (t : State) : Prop where
  rowid : t.rowid = noRowid
  column : ∀ context index, t.column context index = .ok context.setNull

/-- Two states of a table show the same row, or none. -/
structure SameRow (t u : State) : Prop where
  rowid : t.rowid = u.rowid
  column : ∀ context index, t.column context index = u.column context index

/-- The state in which the last call that looked for a row has left a table, if it was not
disconnected since. -/
inductive LastLook (t : State) : List Operation → State → Prop where
  | looks (before : List Operation) {op : Operation} (looks : op.Looks) :
      LastLook t (before ++ [op]) (t.run (before ++ [op]))
  | stays {ops : List Operation} {left : State} {op : Operation} (last : LastLook t ops left)
      (stays : op.Stays) : LastLook t (ops ++ [op]) left

variable {t u v : State} {ops : List Operation} {header : RowCache}

theorem SameRow.refl (t : State) : SameRow t t := ⟨rfl, fun _ _ => rfl⟩

theorem SameRow.trans (first : SameRow t u) (second : SameRow u v) : SameRow t v :=
  ⟨first.rowid.trans second.rowid, fun context index =>
    (first.column context index).trans (second.column context index)⟩

theorem SameRow.showsNothing (same : SameRow t u) (nothing : u.ShowsNothing) : t.ShowsNothing :=
  ⟨same.rowid.trans nothing.rowid, fun context index =>
    (same.column context index).trans (nothing.column context index)⟩

theorem showsNothing_of_none (none : t.caches.data = {}) : t.ShowsNothing where
  rowid := by
    rw [State.rowid, none]
    rfl
  column context index := by
    unfold State.column
    rw [none]
    split <;> rfl

/-! ## Calls that leave the row -/

theorem openCursor_sameRow (t : State) : SameRow t.openCursor.2 t := by
  unfold State.openCursor
  split <;> exact ⟨rfl, fun _ _ => rfl⟩

theorem sourceRewritten_sameRow (t : State) (content : Bytes) :
    SameRow (t.sourceRewritten content) t := by
  have resolve : (t.sourceRewritten content).session.resolve = t.session.resolve := by
    funext span generation
    unfold Session.resolve State.sourceRewritten Session.sourceRewritten
    cases t.session.parser <;> rfl
  refine ⟨rfl, fun context index => ?_⟩
  unfold State.column
  rw [resolve]
  rfl

theorem run_stays {op : Operation} (stays : op.Stays) (t : State) : SameRow (op.run t) t := by
  cases op with
  | openCursor => exact openCursor_sameRow t
  | closeCursor => exact ⟨rfl, fun _ _ => rfl⟩
  | filter => exact absurd (Or.inl rfl) stays.1
  | next => exact absurd (Or.inr rfl) stays.1
  | column | rowid | atEnd => exact SameRow.refl t
  | rewrite content => exact sourceRewritten_sameRow t content
  | disconnect => exact absurd rfl stays.2

theorem runs_stay {rest : List Operation} (idle : ∀ op ∈ rest, op.Stays) (t : State) :
    SameRow (t.run rest) t := by
  induction rest generalizing t with
  | nil => exact SameRow.refl t
  | cons op rest ih =>
    obtain ⟨stays, later⟩ := List.forall_mem_cons.mp idle
    exact (ih later (op.run t)).trans (run_stays stays t)

theorem run_concat (t : State) (ops : List Operation) (op : Operation) :
    t.run (ops ++ [op]) = op.run (t.run ops) := List.foldl_concat ..

theorem LastLook.sameRow {left : State} (last : LastLook t ops left) : SameRow (t.run ops) left := by
  induction last with
  | looks => exact SameRow.refl _
  | stays last stays ih =>
    rw [run_concat]
    exact (run_stays stays _).trans ih

theorem LastLook.current {left : State} (ahead : t.LooksAhead header) (last : LastLook t ops left) :
    (left.atEnd = true → left.ShowsNothing) ∧ (left.atEnd = false → 1 ≤ left.rowid) := by
  induction last with
  | stays last stays ih => exact ih
  | @looks before op looks =>
    obtain ⟨header', ahead', -⟩ := runs_looksAhead ahead (before ++ [op])
    have settled := runs_settled ahead (before ++ [op]) (Or.inr ⟨op, List.mem_concat_self, looks⟩)
    refine ⟨fun ended => ?_, fun going => ?_⟩
    · have none := (Bool.and_eq_true_iff.mp ended).1
      cases ahead'.data with
      | none empty => exact showsNothing_of_none empty
      | row p row id parser shows_ number working head =>
        rw [head] at none
        cases none
    · obtain ⟨row, -, number, positive⟩ := current_of_settled ahead' settled going
      rwa [number]

theorem lastLook_or_showsNothing (none : t.caches.data = {}) (ops : List Operation) :
    (∃ left, LastLook t ops left) ∨ (t.run ops).ShowsNothing := by
  -- The last call decides, unless it leaves the row where it is.
  induction ops using List.reverseRecOn with
  | nil => exact Or.inr (showsNothing_of_none none)
  | append_singleton before op ih =>
    by_cases looks : op.Looks
    · exact Or.inl ⟨_, .looks before looks⟩
    by_cases gone : op = .disconnect
    · subst gone
      rw [run_concat]
      exact Or.inr (showsNothing_of_none rfl)
    have stays : op.Stays := ⟨looks, gone⟩
    refine ih.imp (fun ⟨left, last⟩ => ⟨left, last.stays stays⟩) fun nothing => ?_
    rw [run_concat]
    exact (run_stays stays _).showsNothing nothing

theorem not_showsNothing (number : 1 ≤ t.rowid) : ¬ t.ShowsNothing := fun nothing => by
  rw [nothing.rowid] at number
  exact absurd number (by decide)

end State

theorem exists_twoRows :
    ∃ opened t, (connect {} ["csv", "main", "t", "data=a\n1\n2"] {} 0).result = .ok t ∧
      (connectTo opened "t" t.params {} 0).result = .ok t ∧
      (t.run [.openCursor, .filter]).ShowsRow [[⟨[49], false⟩], [⟨[50], false⟩]] 0 := by
  have input : Utf8.encode "a\n1\n2" = [97, 10, 49, 10, 50] := by decide +kernel
  have parsed : Params.parse (["csv", "main", "t", "data=a\n1\n2"].drop 3) =
      .ok { data := some "a\n1\n2" } := by
    decide +kernel
  have opens : openSource {} ({ data := some "a\n1\n2" } : Params).source =
      .ok { source := .ofBytes [97, 10, 49, 10, 50] } := by
    rw [← input]
    rfl
  have read : (readHeader (.ofBytes [97, 10, 49, 10, 50]) columnsLimit).map Prod.fst =
      .ok [⟨[97], false⟩] := by
    decide +kernel
  obtain ⟨t, connected, same⟩ := connect_of_header parsed opens read
    ⟨_, declareColumns_ok (List.cons_ne_nil _ _) {} 0⟩
  rw [← same] at opens
  obtain ⟨opened, -, rebuilt⟩ := connect_inv connected
  obtain ⟨allowed, opened', opens', kept⟩ := connect_kept connected
  cases opens.symm.trans opens'
  have records : reference Byte.comma [97, 10, 49, 10, 50] =
      [[⟨[97], false⟩], [⟨[49], false⟩], [⟨[50], false⟩]] := by
    decide +kernel
  have fits : ∀ r ∈ reference Byte.comma [97, 10, 49, 10, 50], t.params.limits.Fits r := by
    rw [same, records]
    decide
  obtain ⟨here, filtered, stands⟩ :=
    ((Reachable.openCursor .start).kept kept allowed).stands allowed (by decide) fits
  have reached : t.run [.openCursor, .filter] = here := congrArg Prod.snd filtered
  change here.StandsAt 0 (reference Byte.comma [97, 10, 49, 10, 50]).tail at stands
  rw [records] at stands
  refine ⟨opened, t, connected, ?_, ?_⟩
  · rw [← connected, rebuilt]
    rfl
  · rw [reached]
    exact stands.shows

/-- A new cursor that has not looked for a row shows the one left by the last call that did,
whatever cursor made it, unless the table was disconnected since. It shows nothing exactly if that
call came to the end, or if there was none. -/
theorem opened_shows_row_left {opened : Disk.Opened} {name : String} {params : Params}
    {declaration : Host.Declaration} {blanks : BlankCounter} {t : State}
    (connected : (connectTo opened name params declaration blanks).result = .ok t)
    (ops rest : List Operation) (idle : ∀ op ∈ rest, op.Stays) :
    let s := (t.run ops).openCursor.2.run rest
    (∀ left, t.LastLook ops left → s.SameRow left ∧ (left.atEnd = false → 1 ≤ s.rowid)) ∧
      (s.ShowsNothing ↔ ∀ left, t.LastLook ops left → left.atEnd = true) := by
  intro s
  obtain ⟨cells, ahead⟩ := connectTo_looksAhead connected
  have same : s.SameRow (t.run ops) := (State.runs_stay idle _).trans (State.openCursor_sameRow _)
  have shown : ∀ left, t.LastLook ops left → s.SameRow left := fun left last =>
    same.trans last.sameRow
  have numbered : ∀ left, t.LastLook ops left → left.atEnd = false → 1 ≤ s.rowid := by
    intro left last going
    rw [(shown left last).rowid]
    exact (last.current ahead).2 going
  refine ⟨fun left last => ⟨shown left last, numbered left last⟩, fun nothing left last => ?_,
    fun ended => ?_⟩
  · by_contra going
    exact State.not_showsNothing (numbered left last (Bool.eq_false_iff.mpr going)) nothing
  · rcases State.lastLook_or_showsNothing (connectTo_data connected) ops with ⟨left, last⟩ | nothing
    · exact (shown left last).showsNothing ((last.current ahead).1 (ended left last))
    · exact same.showsNothing nothing

/-- A cursor is dropped at a row, and the bytes behind the table are replaced. -/
theorem opened_shows_row_left_in_scan :
    let ops : List Operation := [.openCursor, .filter, .rowid, .closeCursor, .rewrite []]
    let rest : List Operation := [.column {} 0, .atEnd]
    ∃ t, (connect {} ["csv", "main", "t", "data=a\n1\n2"] {} 0).result = .ok t ∧
      let s := (t.run ops).openCursor.2.run rest
      s.SameRow (t.run [.openCursor, .filter]) ∧ ¬ s.ShowsNothing := by
  intro ops rest
  obtain ⟨opened, t, connected, connected', shown⟩ := exists_twoRows
  have last : t.LastLook ops (t.run [.openCursor, .filter]) := by
    refine .stays (.stays (.stays (.looks [.openCursor] (Or.inl rfl)) ?_) ?_) ?_ <;>
      simp [Operation.Stays, Operation.Looks]
  obtain ⟨left, nothing⟩ := opened_shows_row_left connected' ops rest
    (by simp [rest, Operation.Stays, Operation.Looks])
  refine ⟨t, connected, (left _ last).1, fun none => ?_⟩
  have ended := nothing.mp none _ last
  rw [shown.atEnd] at ended
  cases ended

/-- Nothing clears a row whose cursor is dropped, so the next cursor shows it without having looked
for one. -/
theorem opened_shows_row_of_dropped_cursor :
    ∃ t, (connect {} ["csv", "main", "t", "data=a\n1\n2"] {} 0).result = .ok t ∧
      let s := (t.run [.openCursor, .filter, .closeCursor]).openCursor
      s.1 = .ok () ∧ s.2.rowid = 1 ∧
        (∀ context, s.2.column context 0 = .ok (context.setText [49])) ∧ ¬ s.2.ShowsNothing := by
  obtain ⟨opened, t, connected, -, shown⟩ := exists_twoRows
  let dropped := t.run [.openCursor, .filter, .closeCursor]
  have same : dropped.openCursor.2.SameRow (t.run [.openCursor, .filter]) :=
    (State.openCursor_sameRow dropped).trans ⟨rfl, fun _ _ => rfl⟩
  have number : dropped.openCursor.2.rowid = 1 := same.rowid.trans shown.rowid
  exact ⟨t, connected, rfl, number, fun context => (same.column context 0).trans
    (shown.column context 0), State.not_showsNothing (Int.le_of_eq number.symm)⟩

end Tabular.Table
