import Tabular.Proofs.Sql.TextColumns
import Tabular.Proofs.Table.Names
import Tabular.Table.Connect

/-!
The columns of a header are always ones that a host takes. There is at least one, their names are
told apart the way the host compares them, and the text that declares them gives them back.
-/
namespace Tabular

namespace Host

theorem firstRepeat_of_distinct {seen names : List String}
    (distinct : (names.map Text.lower).Nodup) (apart : ∀ name ∈ names, Text.lower name ∉ seen) :
    firstRepeat seen names = none := by
  induction names generalizing seen with
  | nil => rfl
  | cons name rest ih =>
    rw [List.map_cons, List.nodup_cons] at distinct
    have first := apart name List.mem_cons_self
    rw [firstRepeat, List.contains_eq_mem, decide_eq_false first, if_neg Bool.false_ne_true]
    apply ih distinct.2
    intro other member again
    rcases List.mem_cons.mp again with same | before
    · exact distinct.1 (List.mem_map.mpr ⟨other, member, same⟩)
    · exact apart other (List.mem_cons_of_mem _ member) before

theorem readSchema_of_distinct (columns : Table.HeaderColumns) (filled : columns.names ≠ [])
    (distinct : (columns.names.map Text.lower).Nodup) :
    readSchema columns.createTableSql =
      .ok { table := "x", columns := columns.names.map Sql.Reader.declared } := by
  obtain ⟨name, more, names⟩ := List.exists_cons_of_ne_nil filled
  have read : Sql.statements? columns.createTableSql =
      .ok [.createTable { table := "x", columns := columns.names.map Sql.Reader.declared }] := by
    rw [Sql.statements?, Sql.Token.ofText_declaration columns names, names]
    dsimp only
    rw [Sql.Reader.statements_declaration]
  have same : (columns.names.map Sql.Reader.declared).map Sql.Column.name = columns.names := by
    rw [List.map_map]
    exact List.map_id _
  have checked : checkSchema { table := "x", columns := columns.names.map Sql.Reader.declared } =
      .ok { table := "x", columns := columns.names.map Sql.Reader.declared } := by
    have columned : (columns.names.map Sql.Reader.declared).isEmpty = false := by
      rw [names]
      rfl
    rw [checkSchema, columned, if_neg Bool.false_ne_true, same,
      firstRepeat_of_distinct distinct fun _ _ => List.not_mem_nil]
  rw [readSchema, read]
  dsimp only
  rw [checked]

end Host

namespace Table

/-- The names that a header gives its columns can be declared. -/
theorem readSchema_infer (cells : List Cell) (nonempty : cells ≠ []) (count : BlankCounter) :
    Host.readSchema (HeaderColumns.infer cells count).1.createTableSql =
      .ok { table := "x",
            columns := (HeaderColumns.infer cells count).1.names.map Sql.Reader.declared } := by
  have filled : (HeaderColumns.infer cells count).1.names ≠ [] := by
    intro none
    have length := length_infer_names cells count
    rw [none] at length
    exact nonempty (List.eq_nil_of_length_eq_zero length.symm)
  exact Host.readSchema_of_distinct _ filled (dedupeFrom_distinct {} _).2

theorem declareColumns_ok {header : List Cell} (nonempty : header ≠ [])
    (declaration : Host.Declaration) (blanks : BlankCounter) :
    (declareColumns header declaration blanks).1 = .ok (HeaderColumns.infer header blanks).1.names := by
  unfold declareColumns Host.Declaration.declare
  dsimp only
  rw [readSchema_infer header nonempty blanks]

/-- Whatever the cells of a header hold, each of them names a column, and a host takes the
declaration of the columns. A name is that of the cell itself or that name with a number behind it,
where a blank cell takes the next generated name. -/
theorem header_declares_columns (cells : List Cell) (nonempty : cells ≠ []) (count : BlankCounter)
    (declaration : Host.Declaration) :
    let columns := (HeaderColumns.infer cells count).1
    columns.names.length = cells.length ∧
      (∀ i cell, cells[i]? = some cell → ∃ name, columns.names[i]? = some name ∧
        Renamed (cellName cell (count + blanks (cells.take i))).1 name) ∧
      (columns.names.map Text.lower).Nodup ∧
      columns.blank.Pairwise (· < ·) ∧
      (∀ i, i ∈ columns.blank ↔ ∃ cell, cells[i]? = some cell ∧ cell.bytes = []) ∧
      declaration.declare columns.createTableSql = (.ok (), { declaration with
        schema := some {
          table := "x"
          columns := columns.names.map fun name => { name, type? := some "TEXT" } } }) := by
  intro columns
  refine ⟨length_infer_names cells count, fun i cell present => infer_names_get count present,
    (dedupeFrom_distinct {} _).2, blankPositions_ascending cells, mem_blankPositions cells, ?_⟩
  rw [Host.Declaration.declare, readSchema_infer cells nonempty count]
  rfl

/-- A quote, a repeat in other letters, a piece of no character, and two blank cells at the end of
the counter, of which one would be named as a cell is already. -/
theorem header_declares_awkward_columns :
    let cells : List Cell := [⟨[97, 34], false⟩, ⟨[], false⟩, ⟨[65, 34], true⟩, ⟨[255], false⟩,
      ⟨[], true⟩, ⟨Utf8.encode "blank_column", false⟩]
    let columns := (HeaderColumns.infer cells 0xFFFFFFFF).1
    columns.names.length = 6 ∧ (columns.names.map Text.lower).Nodup ∧ columns.blank = [1, 4] ∧
      (∃ name, columns.names[4]? = some name ∧ Renamed "Blank_Column" name) ∧
      Host.Declaration.declare {} columns.createTableSql = (.ok (), {
        schema := some {
          table := "x"
          columns := columns.names.map fun name => { name, type? := some "TEXT" } } }) := by
  intro cells columns
  obtain ⟨length, named, distinct, -, -, declared⟩ :=
    header_declares_columns cells (by decide) 0xFFFFFFFF {}
  -- The counter has come to its end at the first blank cell and begins anew at the second.
  have anew : (cellName ⟨[], true⟩ (0xFFFFFFFF + blanks (cells.take 4))).1 = "Blank_Column" := by
    decide
  have fourth := named 4 ⟨[], true⟩ rfl
  rw [anew] at fourth
  exact ⟨length, distinct, rfl, fourth, declared⟩

end Table

end Tabular
