import Tabular.Patch.Edit

/-!
What is left of overwrites in front of a cell, once those in front of them for earlier cells are
dropped.
-/
namespace Tabular.Patch

def Overwrite.isBefore (row column : Nat) (o : Overwrite) : Bool :=
  o.row < row || (o.row = row && o.column < column)

/-- What is left of the overwrites once everything in front of a cell is done. -/
def due (all : List Overwrite) (row column : Nat) : List Overwrite :=
  all.dropWhile (Overwrite.isBefore row column)

theorem dropWhile_twice {α : Type} {first second : α → Bool} (l : List α)
    (implied : ∀ a, first a = true → second a = true) :
    (l.dropWhile first).dropWhile second = l.dropWhile second := by
  induction l with
  | nil => rfl
  | cons a rest ih =>
    by_cases dropped : first a = true
    · rw [List.dropWhile_cons_of_pos dropped, List.dropWhile_cons_of_pos (implied a dropped), ih]
    · rw [List.dropWhile_cons_of_neg dropped]

theorem due_row (all : List Overwrite) (row : Nat) :
    (all.dropWhile fun o => decide (¬ row ≤ o.row)) = due all row 0 := by
  unfold due
  congr 1
  funext o
  simp only [Overwrite.isBefore, Nat.not_le, Nat.not_lt_zero, decide_false, Bool.and_false,
    Bool.or_false]

theorem due_next (all : List Overwrite) (row column : Nat) :
    due (due all row column) row (column + 1) = due all row (column + 1) := by
  apply dropWhile_twice
  intro o before
  simp only [Overwrite.isBefore, Bool.or_eq_true, Bool.and_eq_true, decide_eq_true_eq] at before ⊢
  omega

theorem due_endRow (all : List Overwrite) (row column : Nat) :
    due (due all row column) (row + 1) 0 = due all (row + 1) 0 := by
  apply dropWhile_twice
  intro o before
  simp only [Overwrite.isBefore, Bool.or_eq_true, Bool.and_eq_true, decide_eq_true_eq] at before ⊢
  omega

theorem due_due (all : List Overwrite) (row column : Nat) :
    due (due all row column) row column = due all row column :=
  dropWhile_twice all fun _ before => before

theorem find?_due (all : List Overwrite) (row column : Nat) :
    (due all row column).find? (·.hits row column) = all.find? (·.hits row column) := by
  induction all with
  | nil => rfl
  | cons o rest ih =>
    unfold due at ih ⊢
    by_cases before : o.isBefore row column = true
    · rw [List.dropWhile_cons_of_pos before, ih, List.find?_cons_of_neg]
      simp only [Overwrite.isBefore, Overwrite.hits, Bool.or_eq_true, Bool.and_eq_true,
        decide_eq_true_eq] at before ⊢
      omega
    · rw [List.dropWhile_cons_of_neg before]

theorem Ascending.later {o : Overwrite} {rest : List Overwrite} (ascending : Ascending (o :: rest))
    {row column : Nat} (reached : o.isBefore row column = false) :
    rest.find? (·.hits row column) = none := by
  have behind := (List.pairwise_cons.mp ascending).1
  simp only [Overwrite.isBefore, Bool.or_eq_false_iff, Bool.and_eq_false_iff, decide_eq_false_iff_not]
    at reached
  rw [List.find?_eq_none]
  intro next member
  have order := behind next member
  simp only [Overwrite.hits, Bool.and_eq_true, decide_eq_true_eq]
  omega

end Tabular.Patch
