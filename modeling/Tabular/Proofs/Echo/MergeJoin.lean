import Tabular.Echo
import Tabular.Proofs.Csv.Written
import Tabular.Proofs.Patch.Join

/-!
The merge of rows with overwrites. It holds back one overwrite in front of those still to be fetched,
and what it writes is the join of the rows with all of them.
-/
namespace Tabular.Echo.Merge

open Csv Patch

theorem stream_fetch {patches : Patch.Stream}
    (other : ∀ number detail, patches.fault = some (number, detail) →
      patches.fetches + 1 ≠ number) :
    patches.fetch = (.ok patches.remaining.head?,
      { patches with fetches := patches.fetches + 1, remaining := patches.remaining.tail }) := by
  unfold Stream.fetch
  dsimp only
  cases fault : patches.fault with
  | none => rfl
  | some fault' =>
    obtain ⟨number, detail⟩ := fault'
    dsimp only
    rw [if_neg (other number detail fault)]

/-- The overwrites left to a merge, and that no fetch of them fails. -/
structure Holds (m : Merge) (queue : List Overwrite) : Prop where
  queue_eq : m.pending.toList ++ m.patches.remaining = queue
  ended : m.pending = none → queue = []
  sound : ∀ number detail, m.patches.fault = some (number, detail) →
    number ≤ m.patches.fetches ∨ m.patches.fetches + queue.length < number

theorem Holds.of_same {m n : Merge} {queue : List Overwrite} (holds : Holds m queue)
    (patches : n.patches = m.patches) (pending : n.pending = m.pending) : Holds n queue where
  queue_eq := by rw [patches, pending]; exact holds.queue_eq
  ended := by rw [pending]; exact holds.ended
  sound := by rw [patches]; exact holds.sound

theorem fetch_holds {m : Merge} {o : Overwrite} {rest : List Overwrite}
    (holds : Holds m (o :: rest)) :
    m.pending = some o ∧ ∃ patches pending, m.fetch = (.ok (), { m with patches, pending }) ∧
      Holds { m with patches, pending } rest := by
  have held : m.pending = some o ∧ m.patches.remaining = rest := by
    have queue := holds.queue_eq
    cases pending : m.pending with
    | none => cases holds.ended pending
    | some first =>
      rw [pending, Option.toList_some, List.singleton_append] at queue
      obtain ⟨rfl, rfl⟩ := List.cons.inj queue
      exact ⟨rfl, rfl⟩
  obtain ⟨pending, remaining⟩ := held
  have fetched : m.patches.fetch = (.ok rest.head?,
      { m.patches with fetches := m.patches.fetches + 1, remaining := rest.tail }) := by
    rw [← remaining]
    apply stream_fetch
    intro number detail fault
    have sound := holds.sound number detail fault
    rw [List.length_cons] at sound
    omega
  refine ⟨pending, _, rest.head?, by rw [fetch, fetched], ?_, ?_, ?_⟩
  · cases rest <;> rfl
  · intro none
    exact List.head?_eq_none_iff.mp none
  · intro number detail fault
    have sound := holds.sound number detail fault
    rw [List.length_cons] at sound
    show number ≤ m.patches.fetches + 1 ∨ m.patches.fetches + 1 + rest.length < number
    omega

theorem skipBefore_holds {m : Merge} {queue : List Overwrite} (holds : Holds m queue) (row : Nat) :
    ∃ patches pending, m.skipBefore row = (.ok (), { m with patches, pending }) ∧
      Holds { m with patches, pending } (due queue row 0) := by
  induction queue generalizing m with
  | nil =>
    have none : m.pending = none := by
      have queue := holds.queue_eq
      cases pending : m.pending with
      | none => rfl
      | some first =>
        rw [pending] at queue
        cases queue
    refine ⟨m.patches, m.pending, ?_, holds⟩
    unfold skipBefore
    split
    · rfl
    · rename_i o held
      rw [none] at held
      cases held
  | cons o rest ih =>
    obtain ⟨held, patches, pending, fetched, later⟩ := fetch_holds holds
    unfold skipBefore
    split
    · rename_i none
      rw [held] at none
      cases none
    · rename_i first same
      rw [held] at same
      cases same
      -- Those for earlier rows stand in front, so the first one that is not ends the skipping.
      by_cases reached : row ≤ o.row
      · rw [if_pos reached]
        have kept : due (o :: rest) row 0 = o :: rest := by
          rw [← due_row, List.dropWhile_cons_of_neg (by simpa using reached)]
        rw [kept]
        exact ⟨m.patches, m.pending, rfl, holds⟩
      · rw [if_neg reached, ← due_row, List.dropWhile_cons_of_pos (by simpa using reached), due_row]
        obtain ⟨patches', pending', skipped, left⟩ := ih later
        refine ⟨patches', pending', ?_, left⟩
        split
        · rename_i error next failed
          rw [fetched] at failed
          cases failed
        · rename_i next done
          rw [fetched] at done
          cases done
          exact skipped

/-! ## Cells -/

theorem hit_holds {m : Merge} {queue : List Overwrite} (holds : Holds m queue) (row column : Nat) :
    ∃ patches pending,
      m.hit row column = (.ok (takenFor row column queue), { m with patches, pending }) ∧
      Holds { m with patches, pending }
        (if (takenFor row column queue).isSome then queue.tail else queue) := by
  unfold hit
  cases queue with
  | nil =>
    refine ⟨m.patches, m.pending, ?_, holds⟩
    split
    · rename_i o held
      have queue := holds.queue_eq
      rw [held] at queue
      cases queue
    · rfl
  | cons o rest =>
    obtain ⟨held, patches, pending, fetched, later⟩ := fetch_holds holds
    rw [held]
    dsimp only
    by_cases meant : (0 < row && o.hits row column) = true
    · have taken : takenFor row column (o :: rest) = some o := by
        rw [takenFor, List.head?_cons, Option.filter_some_pos]
        simpa [Nat.pos_iff_ne_zero] using meant
      rw [if_pos meant, fetched, taken]
      exact ⟨patches, pending, rfl, later⟩
    · have taken : takenFor row column (o :: rest) = none := by
        rw [takenFor, List.head?_cons, Option.filter_some_neg]
        simpa [Nat.pos_iff_ne_zero] using meant
      rw [if_neg meant, taken]
      exact ⟨m.patches, m.pending, rfl, holds⟩

def wrote (m : Merge) (cells : Record) (overwritten : Nat) : Merge :=
  { m with
    writer := { m.writer with
      out := m.writer.out.extended (Writer.laidOut m.writer.cells cells)
      cells := m.writer.cells + cells.length
      rowBytes := m.writer.rowBytes + Writer.rowSize cells }
    stats.overwritten := m.stats.overwritten + overwritten }

theorem write_wrote {m : Merge} (clean : m.writer.Clean) (c : Cell)
    (room : m.writer.out.HasRoom (Writer.laidOut m.writer.cells [c])) :
    m.write c.bytes c.quoted = (.ok (), m.wrote [c] 0) := by
  have single : Writer.laidOut m.writer.cells [c] =
      Writer.parting m.writer.cells ++ Encoding.cell c := List.append_nil _
  rw [single] at room
  rw [write, Writer.cell_writes clean c.bytes c.quoted room, wrote, single]
  rfl

@[simp] theorem wrote_wrote (m : Merge) (c : Cell) (rest : Record) (first second : Nat) :
    (m.wrote [c] first).wrote rest second = m.wrote (c :: rest) (first + second) := by
  have size : Writer.rowSize (c :: rest) = Writer.rowSize [c] + Writer.rowSize rest := by
    simp only [Writer.rowSize, List.map_cons, List.map_nil, List.sum_cons, List.sum_nil,
      Nat.add_zero]
  have text : Writer.laidOut m.writer.cells (c :: rest) =
      Writer.laidOut m.writer.cells [c] ++ Writer.laidOut (m.writer.cells + 1) rest := by
    rw [Writer.laidOut, Writer.laidOut, Writer.laidOut, List.append_nil]
  unfold wrote
  rw [text, size, ← Output.extended_extended]
  simp only [List.length_cons, List.length_nil, Nat.zero_add, Nat.add_assoc, Nat.add_comm 1]

theorem cell_merges {m : Merge} {queue : List Overwrite} (holds : Holds m queue)
    (clean : m.writer.Clean) (row column : Nat) (c : Cell)
    (room : m.writer.out.HasRoom
      (Writer.laidOut m.writer.cells [(joinCell row column queue c).written])) :
    ∃ patches pending,
      m.cell row column c = (.ok (), { m.wrote [(joinCell row column queue c).written]
        (joinCell row column queue c).used with patches, pending }) ∧
      Holds { m with patches, pending } (joinCell row column queue c).left := by
  obtain ⟨patches, pending, hit, later⟩ := hit_holds holds row column
  refine ⟨patches, pending, ?_, ?_⟩
  · have clean' : ({ m with patches, pending } : Merge).writer.Clean := clean
    rw [cell, hit]
    unfold joinCell at room ⊢
    cases taken : takenFor row column queue with
    | none =>
      rw [taken] at room
      exact write_wrote clean' c room
    | some o =>
      rw [taken] at room
      dsimp only at room ⊢
      rw [write_wrote (c := ⟨o.value, true⟩) clean' room]
      rfl
  · unfold joinCell
    cases taken : takenFor row column queue with
    | none =>
      rw [taken] at later
      exact later
    | some o =>
      rw [taken] at later
      exact later

theorem cells_merges (row column : Nat) (cs : Record) {m : Merge} {queue : List Overwrite}
    (holds : Holds m queue) (clean : m.writer.Clean)
    (room : m.writer.out.HasRoom
      (Writer.laidOut m.writer.cells (joinCells row column queue cs).written)) :
    ∃ patches pending,
      m.cells row column cs = (.ok (), { m.wrote (joinCells row column queue cs).written
        (joinCells row column queue cs).used with patches, pending }) ∧
      Holds { m with patches, pending } (joinCells row column queue cs).left := by
  induction cs generalizing m queue column with
  | nil =>
    refine ⟨m.patches, m.pending, ?_, holds⟩
    have nothing : m.wrote [] 0 = m := by
      unfold wrote
      rw [Writer.laidOut, Output.extended_nil]
      rfl
    rw [cells, joinCells, nothing]
  | cons c rest ih =>
    rw [joinCells] at room ⊢
    generalize joined : joinCell row column queue c = first at room ⊢
    have split : Writer.laidOut m.writer.cells
        (first.written :: (joinCells row (column + 1) first.left rest).written) =
        Writer.laidOut m.writer.cells [first.written] ++ Writer.laidOut (m.writer.cells + 1)
          (joinCells row (column + 1) first.left rest).written := by
      rw [Writer.laidOut, Writer.laidOut, Writer.laidOut, List.append_nil]
    dsimp only at room ⊢
    rw [split] at room
    have one := cell_merges holds clean row column c
    rw [joined] at one
    obtain ⟨patches, pending, written, later⟩ := one room.left
    obtain ⟨patches', pending', others, last⟩ := ih (column + 1)
      (m := { m.wrote [first.written] first.used with patches, pending })
      (later.of_same rfl rfl) ⟨clean.necessary, clean.always⟩ room.right
    refine ⟨patches', pending', ?_, last.of_same rfl rfl⟩
    rw [cells, written, ← wrote_wrote]
    exact others

/-! ## Rows -/

structure AtRow (m : Merge) (queue : List Overwrite) : Prop where
  holds : Holds m queue
  clean : m.writer.Clean
  cells : m.writer.cells = 0
  rowBytes : m.writer.rowBytes = 0

def wroteRows (m : Merge) (rs : List Record) (overwritten : Nat) : Merge :=
  { m with
    writer := { m.writer with out := m.writer.out.extended (rs.flatMap Encoding.row) }
    stats := {
      rows := m.stats.rows + rs.length
      overwritten := m.stats.overwritten + overwritten } }

theorem endRow_wrote {m : Merge} {r : Record} {overwritten : Nat} (cells : m.writer.cells = 0)
    (rowBytes : m.writer.rowBytes = 0) (room : m.writer.out.HasRoom (Encoding.row r)) :
    (m.wrote r overwritten).endRow = (.ok (), m.wroteRows [r] overwritten) := by
  have behind : (m.wrote r overwritten).writer.Behind r := by
    constructor
    · rw [wrote, cells, Nat.zero_add]
    · rw [wrote, rowBytes, Nat.zero_add]
  have text : Encoding.row r =
      Writer.laidOut m.writer.cells r ++ (Writer.filling r ++ [Byte.lineFeed]) := by
    rw [cells, Writer.laidOut_eq, Writer.row_eq]
  rw [text] at room
  rw [endRow, Writer.endRow_writes behind room.right]
  simp [wrote, wroteRows, text, cells, rowBytes]

theorem skipInData_holds {m : Merge} {queue : List Overwrite} (holds : Holds m queue)
    (row target : Nat) :
    ∃ patches pending, m.skipInData row target = (.ok (), { m with patches, pending }) ∧
      Holds { m with patches, pending } (skipTo row target queue) := by
  unfold skipInData skipTo
  by_cases header : row = 0
  · rw [if_pos header, if_pos header]
    exact ⟨m.patches, m.pending, rfl, holds⟩
  · rw [if_neg header, if_neg header]
    exact skipBefore_holds holds target

theorem row_of_parts {m a b c : Merge} {cs : Record}
    (before : m.skipInData m.stats.rows m.stats.rows = (.ok (), a))
    (written : a.cells m.stats.rows 0 cs = (.ok (), b))
    (after : b.skipInData m.stats.rows (m.stats.rows + 1) = (.ok (), c)) :
    m.row cs = c.endRow := by
  simp only [row, before, written, after]

/-- One row is written as it is joined. -/
theorem row_merges {m : Merge} {queue : List Overwrite} (atRow : AtRow m queue) (cs : Record)
    (room : m.writer.out.HasRoom (Encoding.row (joinRow m.stats.rows queue cs).written)) :
    ∃ patches pending,
      m.row cs = (.ok (), { m.wroteRows [(joinRow m.stats.rows queue cs).written]
        (joinRow m.stats.rows queue cs).used with patches, pending }) ∧
      AtRow { m.wroteRows [(joinRow m.stats.rows queue cs).written]
        (joinRow m.stats.rows queue cs).used with patches, pending }
        (joinRow m.stats.rows queue cs).left := by
  -- The overwrites for earlier rows go first, then those for its cells, then what it leaves over.
  obtain ⟨patches₁, pending₁, before, reached⟩ :=
    skipInData_holds atRow.holds m.stats.rows m.stats.rows
  have merged := cells_merges m.stats.rows 0 cs
    (m := { m with patches := patches₁, pending := pending₁ }) reached
    ⟨atRow.clean.necessary, atRow.clean.always⟩
  unfold joinRow at room ⊢
  generalize joinCells m.stats.rows 0 (skipTo m.stats.rows m.stats.rows queue) cs = joined
    at room merged ⊢
  have laid : m.writer.out.HasRoom (Writer.laidOut m.writer.cells joined.written) := by
    have whole := room
    rw [Writer.row_eq, ← Writer.laidOut_eq] at whole
    rw [atRow.cells]
    exact whole.left
  obtain ⟨patches₂, pending₂, written, behind⟩ := merged laid
  obtain ⟨patches₃, pending₃, after, last⟩ := skipInData_holds
    (m := { m.wrote joined.written joined.used with patches := patches₂, pending := pending₂ })
    (behind.of_same rfl rfl) m.stats.rows (m.stats.rows + 1)
  refine ⟨patches₃, pending₃, ?_, last.of_same rfl rfl,
    ⟨atRow.clean.necessary, atRow.clean.always⟩, atRow.cells, atRow.rowBytes⟩
  exact (row_of_parts before written after).trans
    (endRow_wrote (m := { m with patches := patches₃, pending := pending₃ }) atRow.cells
      atRow.rowBytes room)

theorem wroteRows_wroteRows (m : Merge) (r : Record) (rest : List Record) (first second : Nat) :
    (m.wroteRows [r] first).wroteRows rest second = m.wroteRows (r :: rest) (first + second) := by
  unfold wroteRows
  simp [Nat.add_assoc, Nat.add_comm 1]

end Tabular.Echo.Merge
