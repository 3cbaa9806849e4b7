import Tabular.Proofs.Patch.Queue

/-!
Which overwrites have an effect. Those for the header and those for cells that are not there change
nothing, and every other one changes one cell of its own.
-/
namespace Tabular.Patch

open Csv

/-- The overwrite is meant for a cell of the data that is there. -/
def Overwrite.isIn (rs : List Record) (o : Overwrite) : Bool :=
  o.row != 0 && (rs[o.row]?.bind fun r => r[o.column]?).isSome

theorem isIn_of_hits {rs : List Record} {r : Record} {c : Cell} {row column : Nat} {o : Overwrite}
    (data : row ≠ 0) (inRow : rs[row]? = some r) (inColumn : r[column]? = some c)
    (hits : o.hits row column = true) : o.isIn rs = true := by
  simp only [Overwrite.hits, Bool.and_eq_true, decide_eq_true_eq] at hits
  obtain ⟨rfl, rfl⟩ := hits
  simp only [Overwrite.isIn, inRow, Option.bind_some, inColumn, Option.isSome_some, Bool.and_true,
    bne_iff_ne]
  exact data

theorem edit_effective (all : List Overwrite) (rs : List Record) :
    edit (all.filter (Overwrite.isIn rs)) rs = edit all rs := by
  apply List.ext_getElem?
  intro row
  simp only [edit, List.getElem?_mapIdx]
  cases inRow : rs[row]? with
  | none => rfl
  | some r =>
    simp only [Option.map_some, Option.some.injEq]
    apply List.ext_getElem?
    intro column
    simp only [editRecord, List.getElem?_mapIdx]
    cases inColumn : r[column]? with
    | none => rfl
    | some c =>
      by_cases header : row = 0
      · simp only [editCell, if_pos header]
      · have same : (all.filter (Overwrite.isIn rs)).find? (·.hits row column) =
            all.find? (·.hits row column) := by
          rw [List.find?_filter]
          congr 1
          funext o
          cases hits : o.hits row column with
          | false => simp
          | true => simp [isIn_of_hits header inRow inColumn hits]
        simp only [editCell, same]

/-! ## Counting cells -/

def rowCount (chosen : Nat → Bool) (r : Record) : Nat :=
  (r.mapIdx fun column _ => chosen column).count true

def cellCount (chosen : Nat → Nat → Bool) (rs : List Record) : Nat :=
  (rs.mapIdx fun row r => r.mapIdx fun column _ => chosen row column).flatten.count true

@[simp] theorem rowCount_cons (chosen : Nat → Bool) (c : Cell) (rest : Record) :
    rowCount chosen (c :: rest) =
      rowCount (fun column => chosen (column + 1)) rest + if chosen 0 then 1 else 0 := by
  simp only [rowCount, List.mapIdx_cons, List.count_cons, beq_true]

@[simp] theorem cellCount_cons (chosen : Nat → Nat → Bool) (r : Record) (rest : List Record) :
    cellCount chosen (r :: rest) =
      rowCount (chosen 0) r + cellCount (fun row => chosen (row + 1)) rest := by
  simp only [cellCount, rowCount, List.mapIdx_cons, List.flatten_cons, List.count_append]

@[simp] theorem rowCount_false (r : Record) : rowCount (fun _ => false) r = 0 := by
  induction r with
  | nil => rfl
  | cons c rest ih => simp [ih]

@[simp] theorem cellCount_false (rs : List Record) : cellCount (fun _ _ => false) rs = 0 := by
  induction rs with
  | nil => rfl
  | cons r rest ih => simp [ih]

theorem rowCount_or (r : Record) (first second : Nat → Bool)
    (apart : ∀ column, first column = true → second column = false) :
    rowCount (fun column => first column || second column) r =
      rowCount first r + rowCount second r := by
  induction r generalizing first second with
  | nil => rfl
  | cons c rest ih =>
    rw [rowCount_cons, rowCount_cons, rowCount_cons,
      ih (fun column => first (column + 1)) (fun column => second (column + 1))
        fun column => apart (column + 1)]
    cases here : first 0 with
    | false =>
      simp only [Bool.false_or, Bool.false_eq_true, ↓reduceIte]
      omega
    | true =>
      rw [apart 0 here]
      simp only [Bool.true_or, Bool.false_eq_true, ↓reduceIte]
      omega

theorem cellCount_or (rs : List Record) (first second : Nat → Nat → Bool)
    (apart : ∀ row column, first row column = true → second row column = false) :
    cellCount (fun row column => first row column || second row column) rs =
      cellCount first rs + cellCount second rs := by
  induction rs generalizing first second with
  | nil => rfl
  | cons r rest ih =>
    rw [cellCount_cons, cellCount_cons, cellCount_cons, rowCount_or r _ _ (apart 0),
      ih (fun row => first (row + 1)) (fun row => second (row + 1)) fun row => apart (row + 1)]
    omega

theorem rowCount_single (r : Record) (allowed : Bool) (at_ : Nat) :
    rowCount (fun column => allowed && decide (at_ = column)) r =
      if allowed && r[at_]?.isSome then 1 else 0 := by
  induction r generalizing at_ with
  | nil => simp [rowCount]
  | cons c rest ih =>
    rw [rowCount_cons]
    cases at_ with
    | zero => simp
    | succ at_ => simp [ih]

theorem cellCount_single (rs : List Record) (allowed : Bool) (row column : Nat) :
    cellCount (fun i j => (allowed && decide (row = i)) && decide (column = j)) rs =
      if allowed && (rs[row]?.bind fun r => r[column]?).isSome then 1 else 0 := by
  induction rs generalizing row with
  | nil => simp [cellCount]
  | cons r rest ih =>
    rw [cellCount_cons, rowCount_single]
    cases row with
    | zero => simp
    | succ row => simp [ih]

/-- As many cells are overwritten as there are overwrites for cells that are there. -/
theorem countEdited_eq_countP {all : List Overwrite} (ascending : Ascending all)
    (rs : List Record) : countEdited all rs = all.countP (Overwrite.isIn rs) := by
  induction all with
  | nil =>
    have none : isEdited [] = fun _ _ => false := by
      funext row column
      simp [isEdited]
    show cellCount (isEdited []) rs = 0
    simp [none]
  | cons o rest ih =>
    have split : isEdited (o :: rest) = fun row column =>
        ((o.row != 0 && decide (o.row = row)) && decide (o.column = column)) ||
          isEdited rest row column := by
      funext row column
      by_cases same : o.row = row
      · subst same
        simp [isEdited, Overwrite.hits, Bool.and_or_distrib_left]
      · simp [isEdited, Overwrite.hits, same]
    -- The later overwrites are for later cells, so no cell is counted twice.
    have apart : ∀ row column,
        ((o.row != 0 && decide (o.row = row)) && decide (o.column = column)) = true →
          isEdited rest row column = false := by
      intro row column here
      simp only [Bool.and_eq_true, decide_eq_true_eq] at here
      obtain ⟨⟨-, rfl⟩, rfl⟩ := here
      have reached : o.isBefore o.row o.column = false := by simp [Overwrite.isBefore]
      have none := ascending.later reached
      rw [isEdited, List.any_eq_false.mpr (List.find?_eq_none.mp none), Bool.and_false]
    show cellCount (isEdited (o :: rest)) rs = _
    rw [split, cellCount_or rs _ _ apart, cellCount_single, List.countP_cons,
      ← ih (List.pairwise_cons.mp ascending).2, Nat.add_comm]
    rfl

end Tabular.Patch
