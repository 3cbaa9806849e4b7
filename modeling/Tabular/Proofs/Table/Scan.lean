import Tabular.Proofs.Host.Tables
import Tabular.Proofs.Table.Backing

/-!
Scans of a table. Wherever earlier scans have left a table, a new one begins at the first record
of data and comes to the others one by one.
-/
namespace Tabular.Table

open Csv

/-! ## What a cursor shows -/

/-- The cell that a column shows of a record, if there are such a record and such a cell. -/
def cellAt (record : Option Record) (index : Int) : Option Cell :=
  if index < 0 then none else record.bind fun record => record[index.toNat]?

def leave (context : Host.ColumnContext) : Option Cell → Host.ColumnContext
  | some cell => context.setText cell.bytes
  | none => context.setNull

namespace State

/-- What a cursor shows behind `k` records of the data: the next one, or that there is none. -/
structure ShowsRow (t : State) (data : List Record) (k : Nat) : Prop where
  atEnd : t.atEnd = decide (data.length ≤ k)
  rowid : t.rowid = if k < data.length then (k : Int) + 1 else noRowid
  column : ∀ context index, t.column context index = .ok (leave context (cellAt data[k]? index))

/-- Begin a scan and leave `k` rows of it behind. -/
def scan (t : State) : Nat → Except Error Unit × State
  | 0 => t.filter
  | k + 1 =>
      match t.scan k with
      | (.error error, t) => (.error error, t)
      | (.ok (), t) => t.next

/-- The table is at a row behind `k` others, which is that of the record. -/
structure HasRow (t : State) (k : Nat) (record : Record) : Prop where
  holds : ∃ p row, t.session.parser = some p ∧ Shows p row ∧ row.cells = record ∧
    t.caches.data = { rows := #[.borrowed row (k + 1)] }

/-- The table stands behind `k` records and in front of `rs`. -/
def StandsAt (t : State) (k : Nat) (rs : List Record) : Prop := At t.session t.caches.data k rs

variable {t : State} {k : Nat} {rs : List Record} {record : Record}

theorem HasRow.atEnd (has : t.HasRow k record) : t.atEnd = false := by
  obtain ⟨p, row, -, -, -, head⟩ := has.holds
  rw [State.atEnd, head]
  rfl

theorem HasRow.rowid (has : t.HasRow k record) : t.rowid = (k : Int) + 1 := by
  obtain ⟨p, row, -, -, -, head⟩ := has.holds
  rw [State.rowid, head]
  rfl

theorem HasRow.column (has : t.HasRow k record) (context : Host.ColumnContext) (index : Int) :
    t.column context index = .ok (leave context (cellAt (some record) index)) := by
  obtain ⟨p, row, parser, readable, rfl, head⟩ := has.holds
  have resolve : t.session.resolve = p.resolve := by
    unfold Session.resolve
    rw [parser]
  have peek : t.caches.data.peek index.toNat t.session.resolve = .ok row.cells[index.toNat]? := by
    rw [head, resolve]
    exact readable.cell (k + 1) index.toNat
  unfold State.column cellAt
  split
  · rfl
  · rw [peek, Option.bind_some]
    rcases row.cells[index.toNat]? with _ | cell <;> rfl

theorem HasRow.pop (has : t.HasRow k record) : t.caches.data.pop = {} := by
  obtain ⟨p, row, -, -, -, head⟩ := has.holds
  rw [head]
  rfl

theorem HasRow.shows {data : List Record} (has : t.HasRow k record) (at_ : data[k]? = some record) :
    t.ShowsRow data k where
  atEnd := by
    obtain ⟨inside, -⟩ := List.getElem?_eq_some_iff.mp at_
    rw [has.atEnd, decide_eq_false (Nat.not_le_of_lt inside)]
  rowid := by
    obtain ⟨inside, -⟩ := List.getElem?_eq_some_iff.mp at_
    rw [has.rowid, if_pos inside]
  column := by
    rw [at_]
    exact has.column

theorem StandsAt.hasRow (stands : t.StandsAt k (record :: rs)) : t.HasRow k record := by
  generalize all : record :: rs = rows at stands
  cases stands with
  | row p row more parser readable head onward =>
    obtain ⟨rfl, rfl⟩ := List.cons.inj all
    exact ⟨p, row, parser, readable, rfl, head⟩
  | past none done => cases all

theorem StandsAt.none (stands : t.StandsAt k []) : t.caches.data = {} ∧ Done t.session := by
  generalize all : [] = rows at stands
  cases stands with
  | row p row more parser readable head onward => cases all
  | past none done => exact ⟨none, done⟩

theorem StandsAt.shows {data : List Record} (stands : t.StandsAt k (data.drop k)) :
    t.ShowsRow data k := by
  rcases Nat.lt_or_ge k data.length with inside | past
  · rw [List.drop_eq_getElem_cons inside] at stands
    exact stands.hasRow.shows (List.getElem?_eq_getElem inside)
  · rw [List.drop_of_length_le past] at stands
    obtain ⟨none, done⟩ := stands.none
    refine ⟨?_, ?_, fun context index => ?_⟩
    · rw [State.atEnd, none, Session.isDone, done.status, decide_eq_true past]
      rfl
    · rw [State.rowid, none, if_neg (Nat.not_lt_of_le past)]
      rfl
    · rw [List.getElem?_eq_none past]
      unfold State.column cellAt
      rw [none]
      split <;> rfl

theorem StandsAt.length_le (stands : t.StandsAt k rs) : rs.length ≤ t.rowBound := by
  unfold State.rowBound
  cases stands with
  | row p row more parser readable head onward =>
    rw [head, parser]
    show more.length + 1 ≤ 1 + p.work
    rcases onward with ⟨poised, -, -⟩ | ⟨rfl, -⟩
    · have same : some p = some _ := parser.symm.trans poised.parser
      have bound := poised.bound
      omega
    · rw [List.length_nil]
      omega
  | past none done => exact Nat.zero_le _

theorem StandsAt.pull {again : State} {id : Nat}
    (pulled : Pulled id rs (again.session.pull again.caches)) :
    ∃ here, again.pull = (.ok (), here) ∧ here.StandsAt id rs :=
  ⟨_, Prod.ext pulled.ok rfl, pulled.stands⟩

theorem StandsAt.next (stands : t.StandsAt k rs) :
    ∃ here, t.next = (.ok (), here) ∧ here.StandsAt (k + 1) rs.tail := by
  have popped : t.caches.data.pop = {} := by
    cases rs with
    | nil =>
      rw [stands.none.1]
      rfl
    | cons record rest => exact stands.hasRow.pop
  unfold State.next
  dsimp only
  rw [popped, if_pos RowCache.isEmpty_empty]
  apply StandsAt.pull
  dsimp only
  cases stands with
  | row p row more parser readable head onward =>
    rcases onward with ⟨poised, sink, nextId⟩ | ⟨rfl, done⟩
    · exact pull_data poised sink (by rw [nextId]; rfl) rfl
    · rw [pull_done done]
      exact ⟨rfl, .past rfl done⟩
  | past none done =>
    rw [pull_done done]
    exact ⟨rfl, .past rfl done⟩

/-! ## Whole scans -/

variable {params : Params} {content : Bytes}

/-- Wherever a table was left, a scan begins with a pull from a session that faces all records and
passes the first over. -/
theorem Kept.begins (kept : t.Kept params content) (allowed : params.limits.Allowed)
    (single : SingleMark content) :
    ∃ (source : Source) (again : State), t.filter = again.pull ∧
      Facing again.session (Parser.initial source params.limits) (reference Byte.comma content) ∧
      again.session.sink = .skipHeader ∧ again.session.nextId = 1 ∧ again.caches.data = {} := by
  obtain ⟨source, again, serves, front, filtered, -, session, caches⟩ := kept.filter allowed
  refine ⟨source, again, filtered, ?_, by rw [session], by rw [session], by rw [caches]⟩
  rw [session]
  exact facing_initial rfl rfl rfl serves front allowed single

theorem Kept.stands (kept : t.Kept params content) (allowed : params.limits.Allowed)
    (single : SingleMark content)
    (fits : ∀ r ∈ reference Byte.comma content, params.limits.Fits r) :
    ∃ here, t.filter = (.ok (), here) ∧ here.StandsAt 0 (reference Byte.comma content).tail := by
  obtain ⟨source, again, filtered, facing, sink, nextId, none⟩ := kept.begins allowed single
  rw [filtered]
  exact StandsAt.pull (pull_skipHeader ⟨facing, fits⟩ sink nextId none)

theorem Kept.scan (kept : t.Kept params content) (allowed : params.limits.Allowed)
    (single : SingleMark content)
    (fits : ∀ r ∈ reference Byte.comma content, params.limits.Fits r) (k : Nat) :
    ∃ here, t.scan k = (.ok (), here) ∧
      here.StandsAt k ((reference Byte.comma content).tail.drop k) := by
  induction k with
  | zero => exact kept.stands allowed single fits
  | succ k ih =>
    obtain ⟨before, scanned, stands⟩ := ih
    obtain ⟨here, moved, onward⟩ := stands.next
    rw [List.tail_drop] at onward
    refine ⟨here, ?_, onward⟩
    rw [State.scan, scanned]
    exact moved

end State

/-! ## Rows for the host -/

open Host

def valueOf : Option Cell → Value
  | some cell => .text cell.bytes
  | none => .null

def rowOf (width k : Nat) (record : Record) : ScannedRow where
  rowid := k + 1
  values := (List.range width).map fun i => valueOf record[i]?

def rowsOf (width : Nat) : Nat → List Record → List ScannedRow
  | _, [] => []
  | k, record :: rest => rowOf width k record :: rowsOf width (k + 1) rest

namespace State

variable {t : State} {k : Nat} {rs : List Record} {record : Record}

theorem HasRow.columnValue (has : t.HasRow k record) (i : Nat) :
    columnValue t i = .ok (valueOf record[i]?) := by
  have shown : cellAt (some record) i = record[i]? := by
    rw [cellAt, if_neg (Int.not_lt.mpr (Int.natCast_nonneg i)), Int.toNat_natCast]
    rfl
  show (State.column t {} i).map _ = _
  rw [has.column, shown]
  rcases record[i]? with _ | cell <;> rfl

theorem HasRow.currentRow (has : t.HasRow k record) (width : Nat) :
    currentRow t width = .ok (rowOf width k record) := by
  have columns : Host.columnValue t = fun i => pure (valueOf record[i]?) := by
    funext i
    exact has.columnValue i
  unfold Host.currentRow
  rw [columns, List.mapM_pure]
  show Except.ok _ = Except.ok _
  rw [show Cursor.rowid t = _ from has.rowid]
  rfl

theorem StandsAt.rowsFrom (width : Nat) (before : List ScannedRow) (limit : Nat)
    (stands : t.StandsAt k rs) (enough : rs.length ≤ limit) :
    (rowsFrom width before limit t).1 = .ok (before.reverse ++ rowsOf width k rs) := by
  induction limit generalizing t k rs before with
  | zero =>
    rw [List.eq_nil_of_length_eq_zero (Nat.le_zero.mp enough), rowsOf, List.append_nil]
    rfl
  | succ limit ih =>
    cases rs with
    | nil =>
      have ended : t.atEnd = true := by
        rw [State.atEnd, stands.none.1, Session.isDone, stands.none.2.status]
        rfl
      rw [Host.rowsFrom, show Cursor.atEnd t = _ from ended, rowsOf, List.append_nil]
      rfl
    | cons record rest =>
      -- A row that is read takes one off the limit and one off the records ahead.
      obtain ⟨here, moved, onward⟩ := stands.next
      rw [Host.rowsFrom, show Cursor.atEnd t = _ from stands.hasRow.atEnd,
        if_neg (by exact Bool.false_ne_true), stands.hasRow.currentRow]
      dsimp only
      rw [show Cursor.next t = _ from moved]
      dsimp only
      rw [ih _ onward (Nat.le_of_succ_le_succ enough), List.reverse_cons, List.append_assoc]
      rfl

theorem Kept.allRows {params : Params} {content : Bytes} (kept : t.Kept params content)
    (allowed : params.limits.Allowed) (single : SingleMark content)
    (fits : ∀ r ∈ reference Byte.comma content, params.limits.Fits r) (width : Nat) :
    (allRows width t).1 = .ok (rowsOf width 0 (reference Byte.comma content).tail) := by
  obtain ⟨here, filtered, stands⟩ := kept.stands allowed single fits
  unfold Host.allRows
  rw [show Cursor.filter t = _ from filtered]
  dsimp only
  exact stands.rowsFrom width [] _ (Nat.le_succ_of_le stands.length_le)

end State

theorem scanAll_eq {c : Connection} {handle : TableHandle} {number : Nat} {t : State}
    {params : Params} {content : Bytes} (table : handle.table = .csv number)
    (found : c.tables[number]? = some t) (free : t.cursorOpen = false)
    (kept : t.Kept params content) (allowed : params.limits.Allowed) (single : SingleMark content)
    (fits : ∀ r ∈ reference Byte.comma content, params.limits.Fits r) :
    (c.scanAll handle .direct).1 =
      .ok (rowsOf handle.schema.columns.length 0 (reference Byte.comma content).tail) := by
  have kept' : State.Kept { t with cursorOpen := true } params content := { kept with }
  rw [Connection.scanAll_free table found free]
  exact kept'.allRows allowed single fits handle.schema.columns.length

/-- Whatever has been done on a table since it was connected, a scan goes through its data from the
first record to the last and ends there, and a whole table is read as its data. -/
theorem scan_shows_data {disk : Disk} {arguments : List String} {declaration : Declaration}
    {blanks : BlankCounter} {t s : State} {opened : Disk.Opened}
    (connected : (connect disk arguments declaration blanks).result = .ok t)
    (opens : openSource disk t.params.source = .ok opened) (reachable : Reachable t s)
    (single : SingleMark opened.source.content)
    (fits : ∀ r ∈ reference Byte.comma opened.source.content, t.params.limits.Fits r) :
    let data := (reference Byte.comma opened.source.content).tail
    (∀ k, ∃ here, s.scan k = (.ok (), here) ∧ here.ShowsRow data k) ∧
      ∀ (c : Connection) (handle : TableHandle) (number : Nat), handle.table = .csv number →
        c.tables[number]? = some s → s.cursorOpen = false →
          (c.scanAll handle .direct).1 = .ok (rowsOf handle.schema.columns.length 0 data) := by
  obtain ⟨allowed, same, opens', kept⟩ := connect_kept connected
  cases opens.symm.trans opens'
  have kept' := reachable.kept kept allowed
  refine ⟨?_, ?_⟩
  · intro k
    obtain ⟨here, scanned, stands⟩ := kept'.scan allowed single fits k
    exact ⟨here, scanned, stands.shows⟩
  · intro c handle number table found free
    exact scanAll_eq table found free kept' allowed single fits

/-- A scan that was broken off is begun again. -/
theorem scan_shows_data_again :
    let data : List Record := [[⟨[49], false⟩, ⟨[50], false⟩], [⟨[51], false⟩]]
    ∃ t, (connect {} ["csv", "main", "t", "data=a,b\n1,2\n3"] {} 0).result = .ok t ∧
      let s := t.openCursor.2.filter.2.next.2.closeCursor
      (∀ k, ∃ here, s.scan k = (.ok (), here) ∧ here.ShowsRow data k) ∧
        ∀ handle : TableHandle, handle.table = .csv 0 →
          (({ tables := #[s] } : Connection).scanAll handle .direct).1 =
            .ok (rowsOf handle.schema.columns.length 0 data) := by
  intro data
  have input : Utf8.encode "a,b\n1,2\n3" = [97, 44, 98, 10, 49, 44, 50, 10, 51] := by
    decide +kernel
  have parsed : Params.parse (["csv", "main", "t", "data=a,b\n1,2\n3"].drop 3) =
      .ok { data := some "a,b\n1,2\n3" } := by
    decide +kernel
  have opens : openSource {} ({ data := some "a,b\n1,2\n3" } : Params).source =
      .ok { source := .ofBytes [97, 44, 98, 10, 49, 44, 50, 10, 51] } := by
    rw [← input]
    rfl
  have read : (readHeader (.ofBytes [97, 44, 98, 10, 49, 44, 50, 10, 51]) columnsLimit).map
      Prod.fst = .ok [⟨[97], false⟩, ⟨[98], false⟩] := by
    decide +kernel
  have cells : cellNames [⟨[97], false⟩, ⟨[98], false⟩] 0 = (["a", "b"], 0) := by decide +kernel
  have names : dedupe ["a", "b"] = ["a", "b"] := by
    have apart : Text.lower "a" ≠ Text.lower "b" := by decide +kernel
    simp [dedupe, dedupeFrom, freeName, apart]
  have inferred : HeaderColumns.infer [⟨[97], false⟩, ⟨[98], false⟩] 0 =
      ({ names := ["a", "b"], blank := [] }, 0) := by
    rw [HeaderColumns.infer, cells]
    dsimp only
    rw [names]
    rfl
  have declared : (declareColumns [⟨[97], false⟩, ⟨[98], false⟩] {} 0).1 = .ok ["a", "b"] := by
    rw [declareColumns, inferred]
    decide +kernel
  obtain ⟨t, connected, same⟩ := connect_of_header parsed opens read ⟨_, declared⟩
  rw [← same] at opens
  have records : reference Byte.comma [97, 44, 98, 10, 49, 44, 50, 10, 51] =
      [⟨[97], false⟩, ⟨[98], false⟩] :: data := by
    decide +kernel
  have fits : ∀ r ∈ reference Byte.comma [97, 44, 98, 10, 49, 44, 50, 10, 51],
      t.params.limits.Fits r := by
    rw [same, records]
    decide
  have shown := scan_shows_data connected opens
    (.closeCursor (.next (.filter (.openCursor .start)))) (by decide) fits
  have rest : (reference Byte.comma [97, 44, 98, 10, 49, 44, 50, 10, 51]).tail = data := by
    rw [records]
    rfl
  obtain ⟨rows, whole⟩ := shown
  refine ⟨t, connected, ?_, ?_⟩
  · rw [← rest]
    exact rows
  · intro handle table
    rw [← rest]
    exact whole _ handle 0 table rfl rfl

end Tabular.Table
