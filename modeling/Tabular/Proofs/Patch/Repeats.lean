import Mathlib.Data.List.TakeWhile
import Tabular.Proofs.Patch.Effect
import Tabular.Proofs.Patch.Join

/-!
Overwrites in order, among which some may be meant for the same cell. The first of them is used, and
the second one stays in front until the row is over. It masks those for the later cells of the row.
-/
namespace Tabular.Patch

open Csv

/-- Overwrites that ascend by row, and within a row by column. A cell may come more than once. -/
def InOrder (all : List Overwrite) : Prop :=
  all.Pairwise fun a b => a.row < b.row ∨ (a.row = b.row ∧ a.column ≤ b.column)

instance (all : List Overwrite) : Decidable (InOrder all) := by
  unfold InOrder
  infer_instance

theorem Ascending.inOrder {all : List Overwrite} (ascending : Ascending all) : InOrder all :=
  ascending.imp fun order => by omega

/-- An earlier cell of the row is meant more than once. -/
def isMasked (all : List Overwrite) (row column : Nat) : Bool :=
  (List.range column).any fun c => 1 < all.countP (·.hits row c)

theorem isMasked_succ (all : List Overwrite) (row column : Nat) :
    isMasked all row (column + 1) =
      (isMasked all row column || decide (1 < all.countP (·.hits row column))) := by
  rw [isMasked, List.range_succ, List.any_append, List.any_cons, List.any_nil, Bool.or_false]
  rfl

theorem Ascending.countP_le {all : List Overwrite} (ascending : Ascending all) (row column : Nat) :
    all.countP (·.hits row column) ≤ 1 := by
  rw [List.countP_eq_length_filter]
  have ordered : Ascending (all.filter (·.hits row column)) := ascending.sublist List.filter_sublist
  have meant : ∀ o ∈ all.filter (·.hits row column), o.hits row column = true :=
    fun o member => (List.mem_filter.mp member).2
  generalize all.filter (·.hits row column) = hits at ordered meant ⊢
  rcases hits with _ | ⟨a, _ | ⟨b, rest⟩⟩
  · exact Nat.zero_le 1
  · exact Nat.le_refl 1
  · have first := meant a List.mem_cons_self
    have second := meant b (List.mem_cons_of_mem _ List.mem_cons_self)
    have order := (List.pairwise_cons.mp ordered).1 b List.mem_cons_self
    simp only [Overwrite.hits, Bool.and_eq_true, decide_eq_true_eq] at first second
    omega

theorem Ascending.isMasked {all : List Overwrite} (ascending : Ascending all) (row column : Nat) :
    isMasked all row column = false := by
  rw [Patch.isMasked, List.any_eq_false]
  intro c _
  simpa using ascending.countP_le row c

/-! ## The overwrites for one cell -/

theorem InOrder.not_before {all : List Overwrite} (inOrder : InOrder all) (row column : Nat) :
    ∀ o ∈ due all row column, o.isBefore row column = false := by
  have ordered : InOrder (due all row column) := inOrder.sublist (List.dropWhile_sublist _)
  have front := List.head?_dropWhile_not (Overwrite.isBefore row column) all
  rw [← due] at front
  generalize due all row column = left at ordered front ⊢
  intro o member
  rcases left with _ | ⟨first, rest⟩
  · cases member
  · have reached : first.isBefore row column = false := by simpa using front
    rcases List.mem_cons.mp member with rfl | later
    · exact reached
    · have order := (List.pairwise_cons.mp ordered).1 o later
      simp only [Overwrite.isBefore, Bool.or_eq_false_iff, Bool.and_eq_false_iff,
        decide_eq_false_iff_not] at reached ⊢
      omega

/-- Those for a cell come first of what is left in front of it, and are all there are. -/
theorem InOrder.due_cell {all : List Overwrite} (inOrder : InOrder all) (row column : Nat) :
    ∃ meant, due all row column = meant ++ due all row (column + 1) ∧
      (∀ o ∈ meant, o.hits row column = true) ∧
      all.countP (·.hits row column) = meant.length ∧
      all.find? (·.hits row column) = meant.head? := by
  have reached := inOrder.not_before row column
  have passed := inOrder.not_before row (column + 1)
  have next := due_next all row column
  rw [due] at next
  have split := List.takeWhile_append_dropWhile (p := Overwrite.isBefore row (column + 1))
    (l := due all row column)
  rw [next] at split
  have hits : ∀ o ∈ (due all row column).takeWhile (Overwrite.isBefore row (column + 1)),
      o.hits row column = true := by
    intro o member
    have before := List.mem_takeWhile_imp member
    have behind := reached o ((List.takeWhile_sublist _).subset member)
    simp only [Overwrite.isBefore, Overwrite.hits, Bool.or_eq_true, Bool.and_eq_true,
      Bool.or_eq_false_iff, Bool.and_eq_false_iff, decide_eq_true_eq, decide_eq_false_iff_not]
      at before behind ⊢
    omega
  have misses : ∀ o ∈ due all row (column + 1), ¬ o.hits row column = true := by
    intro o member
    have behind := passed o member
    simp only [Overwrite.isBefore, Overwrite.hits, Bool.or_eq_false_iff, Bool.and_eq_false_iff,
      Bool.and_eq_true, decide_eq_true_eq, decide_eq_false_iff_not] at behind ⊢
    omega
  generalize (due all row column).takeWhile (Overwrite.isBefore row (column + 1)) = meant
    at split hits
  refine ⟨meant, split.symm, hits, ?_, ?_⟩
  · have earlier : ∀ o ∈ all.takeWhile (Overwrite.isBefore row column),
        ¬ o.hits row column = true := by
      intro o member
      have before := List.mem_takeWhile_imp member
      simp only [Overwrite.isBefore, Overwrite.hits, Bool.or_eq_true, Bool.and_eq_true,
        decide_eq_true_eq] at before ⊢
      omega
    have whole := List.takeWhile_append_dropWhile (p := Overwrite.isBefore row column) (l := all)
    rw [← due, ← split] at whole
    rw [← whole, List.countP_append, List.countP_append, List.countP_eq_zero.mpr earlier,
      List.countP_eq_zero.mpr misses, List.countP_eq_length.mpr hits, Nat.zero_add, Nat.add_zero]
  · rw [← find?_due, ← split, List.find?_append, List.find?_eq_none.mpr misses, Option.or_none]
    cases meant with
    | nil => rfl
    | cons o rest => exact List.find?_cons_of_pos (hits o List.mem_cons_self)

/-! ## The join -/

def unmaskedCell (all : List Overwrite) (row column : Nat) (c : Cell) : Cell :=
  if isMasked all row column then c else editCell all row column c

def isUsed (all : List Overwrite) (row column : Nat) : Bool :=
  isEdited all row column && !isMasked all row column

/-- Records with the overwrites in place that are not masked. -/
def editUnmasked (all : List Overwrite) (rs : List Record) : List Record :=
  rs.mapIdx fun row r => r.mapIdx fun column c => unmaskedCell all row column c

/-- What is left at a cell of a row of data: what is due, or a second overwrite for an earlier cell
in front of the others. -/
structure AtCell (all : List Overwrite) (row column : Nat) (queue : List Overwrite) : Prop where
  free : isMasked all row column = false → queue = due all row column
  masked : isMasked all row column = true → ∃ o rest, queue = o :: rest ∧ o.column < column
  onward : due queue (row + 1) 0 = due all (row + 1) 0

theorem atCell_zero (all : List Overwrite) (row : Nat) : AtCell all row 0 (due all row 0) where
  free _ := rfl
  masked masked := by cases masked
  onward := due_endRow all row 0

theorem isEdited_eq {row : Nat} (data : row ≠ 0) (all : List Overwrite) (column : Nat) :
    isEdited all row column = (all.find? (·.hits row column)).isSome := by
  have data' : (row != 0) = true := by simpa using data
  rw [isEdited, data', Bool.true_and]
  cases found : all.find? (·.hits row column) with
  | none => exact List.any_eq_false.mpr (List.find?_eq_none.mp found)
  | some o =>
    have hits := List.find?_some found
    exact List.any_eq_true.mpr ⟨o, List.mem_of_find?_eq_some found, hits⟩

theorem joinCell_masked {all queue : List Overwrite} {row column : Nat}
    (masked : isMasked all row column = true) (atCell : AtCell all row column queue) (c : Cell) :
    joinCell row column queue c = ⟨c, 0, queue⟩ ∧ AtCell all row (column + 1) queue := by
  obtain ⟨o, rest, rfl, behind⟩ := atCell.masked masked
  have missed : o.hits row column = false := by
    simp only [Overwrite.hits, Bool.and_eq_false_iff, decide_eq_false_iff_not]
    omega
  constructor
  · rw [joinCell, takenFor_cons, missed, Bool.and_false]
    rfl
  · refine ⟨fun free => ?_, fun _ => ⟨o, rest, rfl, Nat.lt_succ_of_lt behind⟩, atCell.onward⟩
    rw [isMasked_succ, masked] at free
    cases free

theorem joinCell_free {all queue : List Overwrite} (inOrder : InOrder all) {row column : Nat}
    (data : row ≠ 0) (free : isMasked all row column = false) (atCell : AtCell all row column queue)
    (c : Cell) :
    (joinCell row column queue c).written = editCell all row column c ∧
      (joinCell row column queue c).used = (if isEdited all row column then 1 else 0) ∧
      AtCell all row (column + 1) (joinCell row column queue c).left := by
  obtain ⟨meant, split, hits, count, found⟩ := inOrder.due_cell row column
  have next := isMasked_succ all row column
  have onward := atCell.onward
  rw [free, Bool.false_or, count] at next
  rw [atCell.free free] at onward ⊢
  rw [editCell, if_neg data, isEdited_eq data, found, joinCell]
  cases meant with
  | nil =>
    -- What comes first here is meant for a later cell.
    rw [List.nil_append] at split
    have passed : takenFor row column (due all row column) = none := by
      have none := find?_due all row column
      rw [found] at none
      cases left : due all row column with
      | nil => rfl
      | cons o rest =>
        rw [left] at none
        have missed := List.find?_eq_none.mp none o List.mem_cons_self
        rw [takenFor_cons, if_neg]
        simpa using fun _ => missed
    rw [passed]
    refine ⟨rfl, rfl, fun _ => split, fun masked => ?_, onward⟩
    rw [next] at masked
    cases masked
  | cons o rest =>
    have here := hits o List.mem_cons_self
    have data' : (row != 0) = true := by simpa using data
    rw [split] at onward ⊢
    rw [List.cons_append, takenFor_cons, data', here, Bool.and_self, if_pos rfl]
    have left : due (rest ++ due all row (column + 1)) (row + 1) 0 = due all (row + 1) 0 := by
      have before : o.isBefore (row + 1) 0 = true := by
        simp only [Overwrite.hits, Overwrite.isBefore, Bool.and_eq_true, Bool.or_eq_true,
          decide_eq_true_eq] at here ⊢
        omega
      rw [List.cons_append, due, List.dropWhile_cons_of_pos before] at onward
      exact onward
    refine ⟨rfl, rfl, fun alone => ?_, fun masked => ?_, left⟩
    · rw [next, List.length_cons, decide_eq_false_iff_not] at alone
      rw [List.eq_nil_of_length_eq_zero (by omega : rest.length = 0)]
      rfl
    · rw [next, List.length_cons, decide_eq_true_eq] at masked
      obtain ⟨second, others, rfl⟩ := List.exists_cons_of_length_pos (by omega : 0 < rest.length)
      have meant := hits second (List.mem_cons_of_mem _ List.mem_cons_self)
      simp only [Overwrite.hits, Bool.and_eq_true, decide_eq_true_eq] at meant
      exact ⟨second, _, rfl, by omega⟩

theorem joinCell_inOrder {all queue : List Overwrite} (inOrder : InOrder all) {row column : Nat}
    (data : row ≠ 0) (atCell : AtCell all row column queue) (c : Cell) :
    (joinCell row column queue c).written = unmaskedCell all row column c ∧
      (joinCell row column queue c).used = (if isUsed all row column then 1 else 0) ∧
      AtCell all row (column + 1) (joinCell row column queue c).left := by
  unfold unmaskedCell isUsed
  cases masked : isMasked all row column with
  | true =>
    obtain ⟨same, later⟩ := joinCell_masked masked atCell c
    rw [same, Bool.not_true, Bool.and_false]
    exact ⟨rfl, rfl, later⟩
  | false =>
    rw [Bool.not_false, Bool.and_true]
    exact joinCell_free inOrder data masked atCell c

theorem joinCells_inOrder {all : List Overwrite} (inOrder : InOrder all) {row : Nat} (data : row ≠ 0)
    (cs : Record) {column : Nat} {queue : List Overwrite} (atCell : AtCell all row column queue) :
    (joinCells row column queue cs).written =
        cs.mapIdx (fun i c => unmaskedCell all row (column + i) c) ∧
      (joinCells row column queue cs).used = rowCount (fun i => isUsed all row (column + i)) cs ∧
      due (joinCells row column queue cs).left (row + 1) 0 = due all (row + 1) 0 := by
  induction cs generalizing column queue with
  | nil => exact ⟨rfl, rfl, atCell.onward⟩
  | cons c rest ih =>
    obtain ⟨written, used, later⟩ := joinCell_inOrder inOrder data atCell c
    obtain ⟨others, more, onward⟩ := ih later
    refine ⟨?_, ?_, onward⟩
    · rw [joinCells, List.mapIdx_cons]
      simp only [written, others, Nat.add_zero, Nat.add_assoc, Nat.add_comm 1]
    · rw [joinCells, rowCount_cons]
      simp only [used, more, Nat.add_zero, Nat.add_assoc, Nat.add_comm 1]
      exact Nat.add_comm _ _

@[simp] theorem joinCells_header (column : Nat) (queue : List Overwrite) (cs : Record) :
    joinCells 0 column queue cs = ⟨cs, 0, queue⟩ := by
  induction cs generalizing column with
  | nil => rfl
  | cons c rest ih =>
    simp [joinCells, joinCell, ih]

structure AtStart (all : List Overwrite) (row : Nat) (queue : List Overwrite) : Prop where
  header : row = 0 → queue = all
  reaches : due queue row 0 = due all row 0

theorem joinRow_inOrder {all queue : List Overwrite} (inOrder : InOrder all) {row : Nat}
    (atStart : AtStart all row queue) (r : Record) :
    (joinRow row queue r).written = r.mapIdx (fun column c => unmaskedCell all row column c) ∧
      (joinRow row queue r).used = rowCount (isUsed all row) r ∧
      AtStart all (row + 1) (joinRow row queue r).left := by
  by_cases header : row = 0
  · subst header
    have kept : (fun column (c : Cell) => unmaskedCell all 0 column c) = fun _ c => c := by
      funext column c
      unfold unmaskedCell
      split <;> rfl
    have none : isUsed all 0 = fun _ => false := by
      funext column
      rfl
    rw [joinRow, joinCells_header, kept, none, rowCount_false]
    refine ⟨List.ext_getElem (by simp) (by simp), rfl, ?_, ?_⟩
    · intro first
      cases first
    · rw [atStart.header rfl]
      rfl
  · have start : AtCell all row 0 (skipTo row row queue) := by
      rw [skipTo, if_neg header, atStart.reaches]
      exact atCell_zero all row
    obtain ⟨written, used, onward⟩ := joinCells_inOrder inOrder header r start
    simp only [Nat.zero_add] at written used
    refine ⟨written, used, ?_, ?_⟩
    · intro first
      cases first
    · show due (skipTo row (row + 1) _) (row + 1) 0 = _
      rw [skipTo, if_neg header, due_due]
      exact onward

theorem joinRows_inOrder {all : List Overwrite} (inOrder : InOrder all) (rs : List Record)
    {row : Nat} {queue : List Overwrite} (atStart : AtStart all row queue) :
    (joinRows row queue rs).written =
        rs.mapIdx (fun i r => r.mapIdx fun column c => unmaskedCell all (row + i) column c) ∧
      (joinRows row queue rs).used = cellCount (fun i => isUsed all (row + i)) rs := by
  induction rs generalizing row queue with
  | nil => exact ⟨rfl, rfl⟩
  | cons r rest ih =>
    obtain ⟨written, used, later⟩ := joinRow_inOrder inOrder atStart r
    obtain ⟨others, more⟩ := ih later
    constructor
    · rw [joinRows, List.mapIdx_cons]
      simp only [written, others, Nat.add_zero, Nat.add_assoc, Nat.add_comm 1]
    · rw [joinRows, cellCount_cons]
      simp only [used, more, Nat.add_zero, Nat.add_assoc, Nat.add_comm 1]

/-- A table joined with overwrites in order. -/
theorem join_inOrder {all : List Overwrite} (inOrder : InOrder all) (rs : List Record) :
    (join all rs).written = editUnmasked all rs ∧
      (join all rs).used = cellCount (isUsed all) rs := by
  have atStart : AtStart all 0 all := ⟨fun _ => rfl, rfl⟩
  have joined := joinRows_inOrder inOrder rs atStart
  simp only [Nat.zero_add] at joined
  exact joined

theorem join_ascending {all : List Overwrite} (ascending : Ascending all) (rs : List Record) :
    (join all rs).written = edit all rs ∧ (join all rs).used = countEdited all rs := by
  obtain ⟨written, used⟩ := join_inOrder ascending.inOrder rs
  have cells : unmaskedCell all = editCell all := by
    funext row column c
    rw [unmaskedCell, ascending.isMasked, if_neg Bool.false_ne_true]
  have edits : isUsed all = isEdited all := by
    funext row column
    rw [isUsed, ascending.isMasked, Bool.not_false, Bool.and_true]
  rw [written, used, editUnmasked, cells, edits]
  exact ⟨rfl, rfl⟩

/-! ## What is masked -/

def NoneMasked (all : List Overwrite) (rs : List Record) : Prop :=
  ∀ row r, rs[row]? = some r → ∀ column < r.length, isEdited all row column = true →
    isMasked all row column = false

theorem rowCount_eq_zero {chosen : Nat → Bool} {r : Record} :
    rowCount chosen r = 0 ↔ ∀ column < r.length, chosen column = false := by
  rw [rowCount, List.count_eq_zero]
  constructor
  · intro none column inside
    have other : chosen column ≠ true := fun same =>
      none (List.mem_mapIdx.mpr ⟨column, inside, same⟩)
    simpa using other
  · intro none member
    obtain ⟨column, inside, same⟩ := List.mem_mapIdx.mp member
    rw [none column inside] at same
    cases same

theorem cellCount_eq_zero {chosen : Nat → Nat → Bool} {rs : List Record} :
    cellCount chosen rs = 0 ↔
      ∀ row r, rs[row]? = some r → ∀ column < r.length, chosen row column = false := by
  induction rs generalizing chosen with
  | nil => simp [cellCount]
  | cons r rest ih =>
    rw [cellCount_cons, Nat.add_eq_zero_iff, rowCount_eq_zero, ih]
    constructor
    · rintro ⟨first, later⟩ (_ | row) r' found
      · cases found
        exact first
      · exact later row r' found
    · intro none
      exact ⟨none 0 r rfl, fun row r' found => none (row + 1) r' found⟩

theorem cellCount_isUsed_iff (all : List Overwrite) (rs : List Record) :
    cellCount (isUsed all) rs = countEdited all rs ↔ NoneMasked all rs := by
  have split : isEdited all = fun row column =>
      isUsed all row column || (isEdited all row column && isMasked all row column) := by
    funext row column
    rw [isUsed]
    cases isEdited all row column <;> cases isMasked all row column <;> rfl
  have apart : ∀ row column, isUsed all row column = true →
      (isEdited all row column && isMasked all row column) = false := by
    intro row column
    rw [isUsed]
    cases isEdited all row column <;> cases isMasked all row column <;> simp
  have total : countEdited all rs = cellCount (isUsed all) rs +
      cellCount (fun row column => isEdited all row column && isMasked all row column) rs := by
    rw [← cellCount_or rs _ _ apart, ← split]
    rfl
  rw [total, Nat.left_eq_add, cellCount_eq_zero]
  simp only [NoneMasked, Bool.and_eq_false_imp]

theorem NoneMasked.edit {all : List Overwrite} {rs : List Record} (none : NoneMasked all rs) :
    editUnmasked all rs = edit all rs := by
  apply List.ext_getElem?
  intro row
  simp only [editUnmasked, Patch.edit, List.getElem?_mapIdx]
  cases inRow : rs[row]? with
  | none => rfl
  | some r =>
    simp only [Option.map_some, Option.some.injEq]
    apply List.ext_getElem?
    intro column
    simp only [editRecord, List.getElem?_mapIdx]
    cases inColumn : r[column]? with
    | none => rfl
    | some c =>
      obtain ⟨inside, -⟩ := List.getElem?_eq_some_iff.mp inColumn
      simp only [Option.map_some, Option.some.injEq, unmaskedCell]
      cases masked : isMasked all row column with
      | false => rfl
      | true =>
        by_cases header : row = 0
        · rw [if_pos rfl, editCell, if_pos header]
        · have edited : isEdited all row column = false := by
            cases edited : isEdited all row column with
            | false => rfl
            | true =>
              have free := none row r inRow column inside edited
              rw [masked] at free
              cases free
          rw [isEdited_eq header, Option.isSome_eq_false_iff, Option.isNone_iff_eq_none] at edited
          rw [if_pos rfl, editCell, if_neg header, edited]

end Tabular.Patch
