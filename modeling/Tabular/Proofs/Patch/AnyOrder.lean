import Tabular.Proofs.Patch.Repeats

/-!
Overwrites in whatever order. A join picks some of them, in the order in which they come, and writes
the table with those in place. The others have no effect.
-/
namespace Tabular.Patch

open Csv

theorem editCell_append_left {row column : Nat} {first second : List Overwrite}
    (misses : ∀ o ∈ second, o.hits row column = false) (c : Cell) :
    editCell (first ++ second) row column c = editCell first row column c := by
  have none : second.find? (·.hits row column) = none :=
    List.find?_eq_none.mpr fun o member => by rw [misses o member]; exact Bool.false_ne_true
  rw [editCell, editCell, List.find?_append, none, Option.or_none]

theorem editCell_append_right {row column : Nat} {first second : List Overwrite}
    (misses : ∀ o ∈ first, o.hits row column = false) (c : Cell) :
    editCell (first ++ second) row column c = editCell second row column c := by
  have none : first.find? (·.hits row column) = none :=
    List.find?_eq_none.mpr fun o member => by rw [misses o member]; exact Bool.false_ne_true
  rw [editCell, editCell, List.find?_append, none, Option.none_or]

@[simp] theorem editRecord_nil (row : Nat) (r : Record) : editRecord [] row r = r := by
  have kept : editCell [] row = fun _ c => c := by
    funext column c
    rw [editCell, List.find?_nil, ite_self]
  rw [editRecord, kept]
  exact List.ext_getElem (by simp) (by simp)

@[simp] theorem edit_nil (rs : List Record) : edit [] rs = rs := by
  have kept : editRecord [] = fun _ r => r := by
    funext row r
    exact editRecord_nil row r
  rw [edit, kept]
  exact List.ext_getElem (by simp) (by simp)

theorem edit_head? (all : List Overwrite) (rs : List Record) : (edit all rs).head? = rs.head? := by
  cases rs with
  | nil => rfl
  | cons header rest =>
    have kept : editCell all 0 = editCell [] 0 := by
      funext column c
      rfl
    rw [edit, List.mapIdx_cons, List.head?_cons, List.head?_cons, editRecord, kept]
    exact congrArg some (editRecord_nil 0 header)

/-! ## Rows of data -/

/-- What the cells of a row take from the front of a queue. -/
structure TakenBy (row column : Nat) (queue : List Overwrite) (cs : Record)
    (used : List Overwrite) : Prop where
  queue_eq : queue = used ++ (joinCells row column queue cs).left
  count : (joinCells row column queue cs).used = used.length
  written : (joinCells row column queue cs).written =
    cs.mapIdx fun i c => editCell used row (column + i) c
  ascending : Ascending used
  here : ∀ o ∈ used, o.row = row ∧ column ≤ o.column ∧ o.column < column + cs.length

theorem mapIdx_editCell_shift (used : List Overwrite) (row column : Nat) (rest : Record) :
    (rest.mapIdx fun i c => editCell used row (column + (i + 1)) c) =
      rest.mapIdx fun i c => editCell used row (column + 1 + i) c := by
  congr 1
  funext i c
  rw [Nat.add_assoc, Nat.add_comm 1 i]

theorem TakenBy.pass {row column : Nat} {queue used : List Overwrite} {c : Cell} {rest : Record}
    (passed : takenFor row column queue = none)
    (picked : TakenBy row (column + 1) queue rest used) :
    TakenBy row column queue (c :: rest) used := by
  have kept : joinCell row column queue c = ⟨c, 0, queue⟩ := by rw [joinCell, passed]
  have misses : ∀ o ∈ used, o.hits row column = false := by
    intro o member
    have behind := picked.here o member
    simp only [Overwrite.hits, Bool.and_eq_false_iff, decide_eq_false_iff_not]
    omega
  have same : editCell used row column c = c := by
    have whole : editCell (used ++ []) row column c = editCell [] row column c :=
      editCell_append_right misses c
    rw [List.append_nil] at whole
    rw [whole, editCell, List.find?_nil, ite_self]
  refine ⟨?_, ?_, ?_, picked.ascending, fun o member => ?_⟩
  · rw [joinCells, kept]
    exact picked.queue_eq
  · rw [joinCells, kept]
    exact (Nat.zero_add _).trans picked.count
  · rw [joinCells, kept, List.mapIdx_cons, Nat.add_zero column, same, mapIdx_editCell_shift,
      ← picked.written]
  · have behind := picked.here o member
    rw [List.length_cons]
    omega

theorem TakenBy.take {row column : Nat} (data : row ≠ 0) {o : Overwrite}
    (hits : o.hits row column = true) {queue used : List Overwrite} {c : Cell} {rest : Record}
    (picked : TakenBy row (column + 1) queue rest used) :
    TakenBy row column (o :: queue) (c :: rest) (o :: used) := by
  have taken : joinCell row column (o :: queue) c = ⟨⟨o.value, true⟩, 1, queue⟩ := by
    have data' : (row != 0) = true := by simpa using data
    rw [joinCell, takenFor_cons, data', hits]
    rfl
  have place := hits
  simp only [Overwrite.hits, Bool.and_eq_true, decide_eq_true_eq] at place
  have first : editCell (o :: used) row column c = ⟨o.value, true⟩ := by
    rw [editCell, if_neg data, List.find?_cons, hits]
  have later : (rest.mapIdx fun i c => editCell (o :: used) row (column + 1 + i) c) =
      rest.mapIdx fun i c => editCell used row (column + 1 + i) c := by
    congr 1
    funext i c
    have misses : ∀ p ∈ [o], p.hits row (column + 1 + i) = false := by
      intro p member
      rw [List.mem_singleton.mp member]
      simp only [Overwrite.hits, Bool.and_eq_false_iff, decide_eq_false_iff_not]
      omega
    exact editCell_append_right misses c
  refine ⟨?_, ?_, ?_, ?_, fun p member => ?_⟩
  · rw [joinCells, taken, List.cons_append]
    exact congrArg (o :: ·) picked.queue_eq
  · rw [joinCells, taken, List.length_cons]
    exact (congrArg (1 + ·) picked.count).trans (Nat.add_comm _ _)
  · rw [joinCells, taken, List.mapIdx_cons, Nat.add_zero column, first, mapIdx_editCell_shift,
      later, ← picked.written]
  · refine List.pairwise_cons.mpr ⟨fun p member => ?_, picked.ascending⟩
    have := picked.here p member
    omega
  · rw [List.length_cons]
    rcases List.mem_cons.mp member with rfl | member
    · omega
    · have := picked.here p member
      omega

theorem joinCells_takenBy {row : Nat} (data : row ≠ 0) (cs : Record) (column : Nat)
    (queue : List Overwrite) : ∃ used, TakenBy row column queue cs used := by
  induction cs generalizing column queue with
  | nil => exact ⟨[], rfl, rfl, rfl, List.Pairwise.nil, fun o member => by cases member⟩
  | cons c rest ih =>
    cases taken : takenFor row column queue with
    | none =>
      obtain ⟨used, picked⟩ := ih (column + 1) queue
      exact ⟨used, picked.pass taken⟩
    | some o =>
      obtain ⟨front, meant⟩ := Option.filter_eq_some_iff.mp taken
      obtain ⟨behind, rfl⟩ := List.head?_eq_some_iff.mp front
      obtain ⟨used, picked⟩ := ih (column + 1) behind
      exact ⟨o :: used, picked.take data (Bool.and_eq_true_iff.mp meant).2⟩

theorem skipTo_sublist (row target : Nat) (queue : List Overwrite) :
    (skipTo row target queue).Sublist queue := by
  unfold skipTo
  split
  · exact List.Sublist.refl queue
  · exact List.dropWhile_sublist _

/-- A row takes its overwrites from the front of what is left to it, and the header takes none. -/
theorem joinRow_picks (row : Nat) (queue : List Overwrite) (r : Record) :
    ∃ used, (used ++ (joinRow row queue r).left).Sublist queue ∧
      (joinRow row queue r).used = used.length ∧
      (joinRow row queue r).written = editRecord used row r ∧ Ascending used ∧
      ∀ o ∈ used, row ≠ 0 ∧ o.row = row ∧ o.column < r.length := by
  by_cases header : row = 0
  · subst header
    refine ⟨[], ?_, ?_, ?_, List.Pairwise.nil, fun o member => by cases member⟩
    · rw [joinRow, joinCells_header]
      exact List.Sublist.refl queue
    · simp [joinRow]
    · simp [joinRow]
  · obtain ⟨used, picked⟩ := joinCells_takenBy header r 0 (skipTo row row queue)
    refine ⟨used, ?_, picked.count, ?_, picked.ascending, ?_⟩
    · have front := (List.Sublist.refl used).append
        (skipTo_sublist row (row + 1) (joinCells row 0 (skipTo row row queue) r).left)
      rw [← picked.queue_eq] at front
      exact front.trans (skipTo_sublist row row queue)
    · have written := picked.written
      simp only [Nat.zero_add] at written
      exact written
    · intro o member
      have here := picked.here o member
      omega

/-! ## Tables -/

/-- The overwrites that are used for the records from a row on. -/
structure UsedFrom (row : Nat) (queue : List Overwrite) (rs : List Record)
    (used : List Overwrite) : Prop where
  sublist : used.Sublist queue
  count : (joinRows row queue rs).used = used.length
  written : (joinRows row queue rs).written =
    rs.mapIdx fun i r => editRecord used (row + i) r
  ascending : Ascending used
  present : ∀ o ∈ used, o.row ≠ 0 ∧ row ≤ o.row ∧
    ∃ r, rs[o.row - row]? = some r ∧ o.column < r.length

theorem joinRows_usedFrom (rs : List Record) (row : Nat) (queue : List Overwrite) :
    ∃ used, UsedFrom row queue rs used := by
  induction rs generalizing row queue with
  | nil =>
    exact ⟨[], List.nil_sublist _, rfl, rfl, List.Pairwise.nil, fun o member => by cases member⟩
  | cons r rest ih =>
    obtain ⟨first, front, count, written, ascending, here⟩ := joinRow_picks row queue r
    obtain ⟨others, later⟩ := ih (row + 1) (joinRow row queue r).left
    refine ⟨first ++ others, ?_, ?_, ?_, ?_, ?_⟩
    · exact ((List.Sublist.refl first).append later.sublist).trans front
    · rw [joinRows, List.length_append, ← count, ← later.count]
    · have head : editRecord (first ++ others) row r = editRecord first row r := by
        unfold editRecord
        congr 1
        funext column c
        refine editCell_append_left (fun o member => ?_) c
        have := later.present o member
        simp only [Overwrite.hits, Bool.and_eq_false_iff, decide_eq_false_iff_not]
        omega
      have tail : (fun i s => editRecord (first ++ others) (row + (i + 1)) s) =
          fun i s => editRecord others (row + 1 + i) s := by
        funext i s
        unfold editRecord
        rw [Nat.add_assoc, Nat.add_comm 1 i]
        congr 1
        funext column c
        refine editCell_append_right (fun o member => ?_) c
        have := here o member
        simp only [Overwrite.hits, Bool.and_eq_false_iff, decide_eq_false_iff_not]
        omega
      rw [joinRows, List.mapIdx_cons, Nat.add_zero row, head, tail, ← written, ← later.written]
    · refine List.pairwise_append.mpr ⟨ascending, later.ascending, fun a amongst b behind => ?_⟩
      have := here a amongst
      have := later.present b behind
      omega
    · intro o member
      rcases List.mem_append.mp member with amongst | behind
      · obtain ⟨data, same, inRow⟩ := here o amongst
        refine ⟨by omega, by omega, r, ?_, inRow⟩
        rw [same, Nat.sub_self, List.getElem?_cons_zero]
      · obtain ⟨data, reached, r', inRows, inRow⟩ := later.present o behind
        refine ⟨data, by omega, r', ?_, inRow⟩
        rw [show o.row - row = o.row - (row + 1) + 1 by omega, List.getElem?_cons_succ]
        exact inRows

/-- A table joined with overwrites in any order comes out with some of them in place, picked in
their order, one for a cell, and each for a cell of the data that is there. -/
theorem join_picks (all : List Overwrite) (rs : List Record) :
    ∃ used, used.Sublist all ∧ Ascending used ∧ (∀ o ∈ used, o.isIn rs = true) ∧
      (join all rs).used = used.length ∧ (join all rs).written = edit used rs := by
  obtain ⟨used, picked⟩ := joinRows_usedFrom rs 0 all
  refine ⟨used, picked.sublist, picked.ascending, ?_, picked.count, ?_⟩
  · intro o member
    obtain ⟨data, -, r, inRows, inRow⟩ := picked.present o member
    rw [Nat.sub_zero] at inRows
    refine isIn_of_hits data inRows (List.getElem?_eq_getElem inRow) ?_
    simp only [Overwrite.hits, decide_true, Bool.and_self]
  · have written := picked.written
    simp only [Nat.zero_add] at written
    exact written

theorem join_nil (rs : List Record) : (join [] rs).written = rs ∧ (join [] rs).used = 0 := by
  obtain ⟨used, picked, -, -, count, written⟩ := join_picks [] rs
  obtain rfl := List.sublist_nil.mp picked
  exact ⟨written.trans (edit_nil rs), count⟩

end Tabular.Patch
